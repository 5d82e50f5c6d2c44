import LinkedMarkup.Store.Graph

/-
  This file defines queries of one pattern of statements with
  variables, and the rows that answer them.

  Key definitions include:
    * `Query.Slot`
    * `Query`
    * `Query.Bindings`
    * `Query.solve?`
    * `Query.columns`
    * `Graph.answer`
-/

namespace LinkedMarkup

/- What a position of a query may hold. -/
inductive Query.Slot where
  | named (name : String)
  | label (name : String)
  | anything
  | term (value : Term)
  deriving DecidableEq, Repr

/-
  A query: the variables to report, all of them if none are
  given, whether equal rows count once, and its pattern.
-/
structure Query where
  wanted : Option (List String)
  distinct : Bool
  subject : Query.Slot
  predicate : Query.Slot
  object : Query.Slot
  deriving DecidableEq, Repr

namespace Query

------------------------------------------------------------
-- Solving
------------------------------------------------------------

/- The terms that variables and labels stand for. -/
abbrev Bindings := List (Slot × Term)

/- A term in canonical form. -/
def canonicalTerm :
    Term → Term
  | .literal l => .literal l.canonical
  | t => t

/-
  Let a slot stand for a term, if it may: a term stands for
  itself only, and a name always for the same term.
-/
def bind?
    (slot : Slot)
    (term : Term)
    (known : Bindings) : Option Bindings :=
  match slot with
  | .anything => some known
  | .term value =>
      if canonicalTerm value == term then some known else none
  | _ =>
      match known.lookup slot with
      | none => some ((slot, term) :: known)
      | some other => if other == term then some known else none

/- The bindings by which a query fits a statement, if any. -/
def solve?
    (query : Query)
    (q : Quad) : Option Bindings := do
  let known ← bind? query.subject q.subject.toTerm []
  let known ← bind? query.predicate (.iri q.predicate) known
  bind? query.object q.object.toTerm known

------------------------------------------------------------
-- Rows
------------------------------------------------------------

/- The name of the variable in a slot. -/
def Slot.name? :
    Slot → Option String
  | .named name => some name
  | _ => none

/- The names of the variables that a query reports. -/
def columns
    (query : Query) : List String :=
  match query.wanted with
  | some names => names.eraseDups
  | none =>
      ([query.subject, query.predicate, query.object].filterMap
        Slot.name?).eraseDups.mergeSort

/- A row: variables and the text of what they stand for. -/
abbrev Row := List (String × Option String)

/- The row of bindings. -/
def row
    (query : Query)
    (known : Bindings) : Row :=
  query.columns.map (fun name =>
    (name, (known.lookup (Slot.named name)).map Term.written))

/- The order of entries: by name, then nothing before texts. -/
def entryLe
    (a b : String × Option String) : Bool :=
  if a.1 == b.1 then
    match a.2, b.2 with
    | none, _ => true
    | some _, none => false
    | some s, some t => s ≤ t
  else
    a.1 ≤ b.1

/- The order of rows, entry by entry. -/
def rowLe :
    Row → Row → Bool
  | [], _ => true
  | _ :: _, [] => false
  | a :: r, b :: s => if a == b then rowLe r s else entryLe a b

end Query

/- The rows that answer a query, sorted. -/
def Graph.answer
    (g : Graph)
    (query : Query) : List Query.Row :=
  let rows := (g.quads.filterMap query.solve?).map query.row
  (if query.distinct then rows.eraseDups else rows).mergeSort Query.rowLe

end LinkedMarkup
