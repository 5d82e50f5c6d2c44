import LinkedMarkup.Number.Binary
import LinkedMarkup.Text.Printable

/-
  This file defines loosely typed values, as callers pass
  them in, and their text: as shown on their own, and as
  shown inside a list.

  Key definitions include:
    * `Datum`
    * `Datum.typeName`
    * `Datum.quoted`
    * `Datum.shown`
    * `Datum.display`
-/

namespace LinkedMarkup

------------------------------------------------------------
-- Values
------------------------------------------------------------

/-
  A value of some type. A real number is kept as its sign,
  its decimal digits and the power of ten that scales them.
-/
inductive Datum where
  | absent
  | truth (value : Bool)
  | whole (value : Int)
  | real (negative : Bool) (digits : Nat) (power : Int)
  | text (value : String)
  | series (values : List Datum)
  | table (entries : List (String × Datum))
  deriving Inhabited, Repr

namespace Datum

/- The name of a value's type, as messages give it. -/
def typeName :
    Datum → String
  | absent => "NoneType"
  | truth _ => "bool"
  | whole _ => "int"
  | real _ _ _ => "float"
  | text _ => "str"
  | series _ => "list"
  | table _ => "dict"

------------------------------------------------------------
-- Quoted text
------------------------------------------------------------

/- A number as a fixed count of hexadecimal digits. -/
def hexDigits
    (count n : Nat) : List Char :=
  let digits := Nat.toDigits 16 n
  List.replicate (count - digits.length) '0' ++ digits

/-
  One character of a quoted text: the quote, the backslash
  and unprintable characters are escaped.
-/
def quotedChar
    (quote c : Char) : List Char :=
  if c == quote || c == '\\' then
    ['\\', c]
  else if c == '\t' then
    ['\\', 't']
  else if c == '\n' then
    ['\\', 'n']
  else if c == '\r' then
    ['\\', 'r']
  else if Text.isPrintable c then
    [c]
  else if c.toNat < 0x100 then
    '\\' :: 'x' :: hexDigits 2 c.toNat
  else if c.toNat < 0x10000 then
    '\\' :: 'u' :: hexDigits 4 c.toNat
  else
    '\\' :: 'U' :: hexDigits 8 c.toNat

/-
  A text in single quotes, or in double ones if it holds
  single quotes only.
-/
def quoted
    (s : String) : String :=
  let cs := s.toList
  let quote :=
    if cs.contains '\'' && !cs.contains '"' then '"' else '\''
  String.ofList (quote :: cs.flatMap (quotedChar quote) ++ [quote])

------------------------------------------------------------
-- Real numbers
------------------------------------------------------------

/-
  A real number with the fewest digits that read back:
  positional from 0.0001 up to 10^16, with an exponent of at
  least two digits elsewhere.
-/
def realText
    (negative : Bool)
    (digits : Nat)
    (power : Int) : String :=
  let sign := if negative then ['-'] else []
  match Binary.ofDecimal Binary.double digits power with
  | .infinite => String.ofList (sign ++ ['i', 'n', 'f'])
  | .finite mantissa scale =>
      let d := Binary.shortest Binary.double mantissa scale
      if -4 ≤ d.power && d.power < 16 then
        let body := Binary.positional d
        let tail := if body.contains '.' then [] else ['.', '0']
        String.ofList (sign ++ body ++ tail)
      else
        let fraction :=
          match d.digits.drop 1 with
          | [] => []
          | rest => '.' :: rest
        let size := Binary.decimalDigits d.power.natAbs
        let padded := if size.length < 2 then '0' :: size else size
        let mark := if d.power < 0 then '-' else '+'
        String.ofList
          (sign ++ d.digits.take 1 ++ fraction ++ 'e' :: mark :: padded)

------------------------------------------------------------
-- Text of values
------------------------------------------------------------

mutual

/- A value as it is shown inside another one. -/
def shown :
    Datum → String
  | absent => "None"
  | truth true => "True"
  | truth false => "False"
  | whole n => toString n
  | real negative digits power => realText negative digits power
  | text s => quoted s
  | series values => "[" ++ shownSeries values ++ "]"
  | table entries => "\x7b" ++ shownTable entries ++ "\x7d"

/- The values of a list, separated by commas. -/
def shownSeries :
    List Datum → String
  | [] => ""
  | [d] => shown d
  | d :: rest => shown d ++ ", " ++ shownSeries rest

/- The entries of a table, separated by commas. -/
def shownTable :
    List (String × Datum) → String
  | [] => ""
  | [(key, d)] => quoted key ++ ": " ++ shown d
  | (key, d) :: rest =>
      quoted key ++ ": " ++ shown d ++ ", " ++ shownTable rest

end

/- A value as text on its own: a text is not quoted. -/
def display :
    Datum → String
  | text s => s
  | d => shown d

end Datum
end LinkedMarkup
