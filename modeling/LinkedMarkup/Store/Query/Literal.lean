import LinkedMarkup.Store.Query.Name

/-
  This file defines the literals in the text of queries: text
  in quotes, numbers and truth values.

  Key definitions include:
    * `Query.Reader.quoted?`
    * `Query.Reader.textLiteral?`
    * `Query.Reader.numberLiteral?`
    * `Query.Reader.literal?`
-/

namespace LinkedMarkup
namespace Query
namespace Reader

/- The character that an escape of one letter stands for. -/
def escape?
    (c : Char) : Option Char :=
  [('t', '\t'), ('n', '\n'), ('r', '\r'), ('b', '\x08'),
    ('f', '\x0c'), ('"', '"'), ('\'', '\''), ('\\', '\\')].lookup c

/- The character of a number in hexadecimal digits. -/
def numbered?
    (digits : List Char) : Option Char :=
  let n := Text.natOfHexDigits digits
  if digits.all Text.isHexDigit &&
      (Char.ofNat n).toNat == n then
    some (Char.ofNat n)
  else
    none

/-
  The text before closing quotes, with its escapes resolved,
  and what follows them. One quote closes a text of one line.
-/
def quoted?
    (quote : Char)
    (long : Bool)
    (cs : List Char) : Option (List Char × List Char) :=
  match cs with
  | [] => none
  | '\\' :: 'u' :: a :: b :: c :: d :: rest =>
      match numbered? [a, b, c, d] with
      | none => none
      | some x => (quoted? quote long rest).map (fun r => (x :: r.1, r.2))
  | '\\' :: c :: rest =>
      match escape? c with
      | none => none
      | some x => (quoted? quote long rest).map (fun r => (x :: r.1, r.2))
  | c :: rest =>
      if c == quote && !long then
        some ([], rest)
      else if c == quote && rest.take 2 == [quote, quote] then
        some ([], rest.drop 2)
      else if !long && (c == '\n' || c == '\r') then
        none
      else
        (quoted? quote long rest).map (fun r => (c :: r.1, r.2))

/- A text in quotes of any form, and what follows it. -/
def text?
    (cs : List Char) : Option (String × List Char) :=
  match skip cs with
  | [] => none
  | quote :: rest =>
      if quote == '"' || quote == '\'' then
        let long := rest.take 2 == [quote, quote]
        (quoted? quote long (if long then rest.drop 2 else rest)).map
          (fun r => (String.ofList r.1, r.2))
      else
        none

/- A text with its language or datatype, and what follows it. -/
def textLiteral?
    (names : Entries)
    (cs : List Char) : Option (Literal × List Char) :=
  match text? cs with
  | none => none
  | some (value, rest) =>
      match rest with
      | '@' :: more =>
          let isTag := fun (c : Char) =>
            Text.isAsciiAlphanumeric c || c == '-'
          (Literal.tagged? value
              (String.ofList (more.takeWhile isTag))).map
            (·, more.dropWhile isTag)
      | '^' :: '^' :: more =>
          (iri? names more).map (fun r => (.typed value r.1, r.2))
      | _ => some (.plain value, rest)

/- The exponent of a number, and what follows it. -/
def exponent
    (cs : List Char) : List Char × List Char :=
  match cs with
  | [] => ([], [])
  | e :: rest =>
      let sign := rest.takeWhile (fun c => c == '+' || c == '-')
      let more := rest.drop sign.length
      let digits := more.takeWhile Text.isAsciiDigit
      if (e == 'e' || e == 'E') && sign.length ≤ 1 &&
          !digits.isEmpty then
        (e :: sign ++ digits, more.drop digits.length)
      else
        ([], cs)

/- A number, and what follows it. -/
def numberLiteral?
    (cs : List Char) : Option (Literal × List Char) :=
  let found := skip cs
  let sign := (found.take 1).filter (fun c => c == '+' || c == '-')
  let rest := found.drop sign.length
  let whole := rest.takeWhile Text.isAsciiDigit
  let afterWhole := rest.drop whole.length
  let fraction :=
    match afterWhole with
    | '.' :: more => more.takeWhile Text.isAsciiDigit
    | _ => []
  let pointed := !fraction.isEmpty ||
    (!whole.isEmpty && afterWhole.head? == some '.' &&
      !(exponent (afterWhole.drop 1)).1.isEmpty)
  let body :=
    if pointed then whole ++ '.' :: fraction else whole
  let (power, tail) := exponent (rest.drop body.length)
  let value := String.ofList (sign ++ body ++ power)
  let name :=
    if !power.isEmpty then "double"
    else if pointed then "decimal"
    else "integer"
  if body.isEmpty then
    none
  else
    some (.typed value ⟨Xsd.base ++ name⟩, tail)

/- One of the two truth values, and what follows it. -/
def truthLiteral?
    (cs : List Char) : Option (Literal × List Char) :=
  let literal := fun (value : String) =>
    (Text.dropFront? value.toList (skip cs)).map
      (fun rest =>
        (Literal.typed value ⟨Xsd.base ++ "boolean"⟩, rest))
  (literal "true").orElse (fun _ => literal "false")

/- A literal, and what follows it. -/
def literal?
    (names : Entries)
    (cs : List Char) : Option (Literal × List Char) :=
  (textLiteral? names cs).orElse (fun _ =>
    (numberLiteral? cs).orElse (fun _ => truthLiteral? cs))

end Reader
end Query
end LinkedMarkup
