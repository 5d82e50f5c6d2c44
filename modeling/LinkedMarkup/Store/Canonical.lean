import LinkedMarkup.Number.Floating
import LinkedMarkup.Statement.Quad
import LinkedMarkup.Text.Split
import LinkedMarkup.Time.Duration
import LinkedMarkup.Time.Instant

/-
  This file defines the canonical form of literals. A literal
  of a datatype with values is known by its value, so its text
  is the short form of that; a text that writes no value stays
  as it is.

  Key definitions include:
    * `Canonical.Kind`
    * `Canonical.kinds`
    * `Canonical.text?`
    * `Literal.canonical`
    * `Quad.canonical`
-/

namespace LinkedMarkup
namespace Canonical

------------------------------------------------------------
-- Datatypes
------------------------------------------------------------

/- The kinds of values that datatypes have. -/
inductive Kind where
  | truth
  | whole
  | decimal
  | floating (format : Binary.Format)
  | instant (form : Instant.Form)
  | duration
  | monthsDuration
  | secondsDuration
  deriving DecidableEq, Repr

/- The names of the datatypes of whole numbers. -/
def wholeNames : List String :=
  ["integer", "byte", "short", "int", "long", "unsignedByte",
    "unsignedShort", "unsignedInt", "unsignedLong",
    "positiveInteger", "negativeInteger", "nonPositiveInteger",
    "nonNegativeInteger"]

/-
  Each datatype with values: its name, its kind, and the name
  of the datatype that its values come back with.
-/
def kinds : List (String × Kind × String) :=
  wholeNames.map (fun name => (name, .whole, "integer")) ++
    [("boolean", .truth, "boolean"),
      ("decimal", .decimal, "decimal"),
      ("float", .floating Binary.single, "float"),
      ("double", .floating Binary.double, "double"),
      ("dateTime", .instant .dateTime, "dateTime"),
      ("dateTimeStamp", .instant .dateTime, "dateTime"),
      ("time", .instant .time, "time"),
      ("date", .instant .date, "date"),
      ("gYearMonth", .instant .yearMonth, "gYearMonth"),
      ("gYear", .instant .year, "gYear"),
      ("gMonthDay", .instant .monthDay, "gMonthDay"),
      ("gDay", .instant .monthly, "gDay"),
      ("gMonth", .instant .yearly, "gMonth"),
      ("duration", .duration, "duration"),
      ("yearMonthDuration", .monthsDuration, "yearMonthDuration"),
      ("dayTimeDuration", .secondsDuration, "dayTimeDuration")]

------------------------------------------------------------
-- Values
------------------------------------------------------------

/- The short form of a truth value. -/
def truthText?
    (cs : List Char) : Option (List Char) :=
  let value := String.ofList cs
  if value == "true" || value == "1" then
    some ['t', 'r', 'u', 'e']
  else if value == "false" || value == "0" then
    some ['f', 'a', 'l', 's', 'e']
  else
    none

/- The short form of a whole number in a range of 64 bits. -/
def wholeText?
    (cs : List Char) : Option (List Char) :=
  let (negative, digits) := Decimal.cutSign cs
  let n := Decimal.withSign negative (Text.natOfDigits digits)
  if digits.isEmpty || !digits.all Text.isAsciiDigit ||
      !SignedRange.holds 64 n then
    none
  else
    some (toString n).toList

/- The short form of a value of a kind, if a text writes one. -/
def text?
    (kind : Kind)
    (cs : List Char) : Option (List Char) :=
  match kind with
  | .truth => truthText? cs
  | .whole => wholeText? cs
  | .decimal => (Decimal.parse? cs).map Decimal.written
  | .floating f => (Floating.parse? f cs).map (Floating.written f)
  | .instant form => (Instant.parse? form cs).map Instant.written
  | .duration => (Duration.parse? cs).map Duration.written
  | .monthsDuration =>
      (Duration.ofMonths? cs).map Duration.writtenMonths
  | .secondsDuration => (Duration.ofSeconds? cs).map Duration.written

/- What is known of a datatype with values. -/
def kind?
    (datatype : Iri) : Option (Kind × String) :=
  (Text.dropFront? Xsd.base.toList datatype.text.toList).bind
    (fun name => kinds.lookup (String.ofList name))

end Canonical

------------------------------------------------------------
-- Literals and statements
------------------------------------------------------------

/- A literal in canonical form. -/
def Literal.canonical
    (l : Literal) : Literal :=
  match l with
  | .tagged _ _ => l
  | .typed value datatype =>
      match Canonical.kind? datatype with
      | none => l
      | some (kind, name) =>
          match Canonical.text? kind value.toList with
          | none => l
          | some text =>
              .typed (String.ofList text) ⟨Xsd.base ++ name⟩

/- An object in canonical form. -/
def Object.canonical :
    Object → Object
  | .literal l => .literal l.canonical
  | o => o

/- A statement in canonical form. -/
def Quad.canonical
    (q : Quad) : Quad :=
  { q with object := q.object.canonical }

end LinkedMarkup
