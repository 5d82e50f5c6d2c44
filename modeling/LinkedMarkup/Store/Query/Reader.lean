import LinkedMarkup.Store.Query
import LinkedMarkup.Store.Query.Literal

/-
  This file defines the text of queries: declarations of short
  names, then a selection of variables from one pattern.

  Key definitions include:
    * `Query.Reader.slot?`
    * `Query.Reader.relation?`
    * `Query.Reader.declarations`
    * `Query.Reader.selecting?`
    * `Query.parse?`
    * `Query.preamble`
    * `Graph.query`
-/

namespace LinkedMarkup
namespace Query
namespace Reader

------------------------------------------------------------
-- Slots
------------------------------------------------------------

/- A variable's name, and what follows it. -/
def placeholder?
    (cs : List Char) : Option (String × List Char) :=
  match skip cs with
  | [] => none
  | c :: rest =>
      let name := rest.takeWhile isVariableChar
      if (c == '?' || c == '$') &&
          name.head?.any BlankNode.isLabelStart then
        some (String.ofList name, rest.dropWhile isVariableChar)
      else
        none

/- A blank node, which fits anything, and what follows it. -/
def blank?
    (cs : List Char) : Option (Slot × List Char) :=
  match skip cs with
  | '[' :: rest => (mark? ']' rest).map (Slot.anything, ·)
  | '_' :: ':' :: rest =>
      let (name, tail) := dotted rest
      if BlankNode.isLabel name then
        some (.label (String.ofList name), tail)
      else
        none
  | _ => none

/- A variable or an IRI, and what follows it. -/
def name?
    (names : Entries)
    (cs : List Char) : Option (Slot × List Char) :=
  match placeholder? cs with
  | some (name, rest) => some (.named name, rest)
  | none => (iri? names cs).map (fun r => (.term (.iri r.1), r.2))

/- A slot for a subject or object, and what follows it. -/
def slot?
    (names : Entries)
    (cs : List Char) : Option (Slot × List Char) :=
  (name? names cs).orElse (fun _ =>
    (blank? cs).orElse (fun _ =>
      (literal? names cs).map (fun r => (.term (.literal r.1), r.2))))

/- A slot for a predicate, and what follows it. -/
def relation?
    (names : Entries)
    (cs : List Char) : Option (Slot × List Char) :=
  (name? names cs).orElse (fun _ =>
    (Text.dropFront? ['a'] (skip cs)).map
      (Slot.term (.iri Rdf.type), ·))

------------------------------------------------------------
-- Queries
------------------------------------------------------------

/- Declarations of short names, as far as the fuel reaches. -/
def declarations :
    Nat → Entries → List Char → Option (Entries × List Char)
  | 0, names, cs => some (names, cs)
  | fuel + 1, names, cs =>
      match word? "prefix" cs with
      | none => some (names, cs)
      | some rest =>
          match shortName? (skip rest) with
          | none => none
          | some (name, rest) =>
              match bracketed? rest with
              | none => none
              | some (iri, rest) =>
                  declarations fuel (names.set name iri.text) rest

/- Variables in a row, as far as the fuel reaches. -/
def nameList :
    Nat → List Char → List String × List Char
  | 0, cs => ([], cs)
  | fuel + 1, cs =>
      match placeholder? cs with
      | none => ([], cs)
      | some (name, rest) =>
          let (names, tail) := nameList fuel rest
          (name :: names, tail)

/- The variables to report, or all, and what follows. -/
def selection?
    (cs : List Char) : Option (Option (List String) × List Char) :=
  match mark? '*' cs with
  | some rest => some (none, rest)
  | none =>
      match nameList cs.length cs with
      | ([], _) => none
      | (names, rest) => some (some names, rest)

/- What follows an optional word, and whether it was there. -/
def option
    (word : String)
    (cs : List Char) : Bool × List Char :=
  match word? word cs with
  | some rest => (true, rest)
  | none => (false, cs)

/- The query that a text is, after its declarations. -/
def selecting?
    (names : Entries)
    (cs : List Char) : Option Query := do
  let rest ← word? "select" cs
  let (unique, rest) := option "distinct" rest
  let (wanted, rest) ← selection? rest
  let rest ← mark? '\x7b' (option "where" rest).2
  let (s, rest) ← slot? names rest
  let (p, rest) ← relation? names rest
  let (o, rest) ← slot? names rest
  let rest ← mark? '\x7d' ((mark? '.' rest).getD rest)
  if (skip rest).isEmpty then
    return ⟨wanted, unique, s, p, o⟩
  else
    none

end Reader

/- The query that a text is. -/
def parse?
    (text : String) : Option Query := do
  let cs := text.toList
  let (names, rest) ← Reader.declarations cs.length [] cs
  Reader.selecting? names rest

/- Declarations of short names as a query starts with them. -/
def preamble
    (names : Entries) : String :=
  String.intercalate "\n" (names.map (fun entry =>
    "PREFIX " ++ entry.1 ++ ": <" ++ entry.2 ++ ">"))

end Query

/- The rows that answer the text of a query. -/
def Graph.query
    (g : Graph)
    (text : String) : Except Fault (List Query.Row) :=
  let whole := Query.preamble g.namespaces ++ "\n" ++ text
  match Query.parse? whole with
  | some query => .ok (g.answer query)
  | none => .error (.malformedQuery whole)

end LinkedMarkup
