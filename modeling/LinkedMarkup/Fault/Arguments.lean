import LinkedMarkup.Fault
import LinkedMarkup.Number.Datum

/-
  This file defines the faults that callers raise themselves
  from loose values: how the values become a message.

  Key definitions include:
    * `Fault.ofArguments`
-/

namespace LinkedMarkup
namespace Fault

/- Several values as one message. -/
def together
    (values : List Datum) : String :=
  "(" ++ Datum.shownSeries values ++ ")"

/-
  The fault of values that do not suit one of the library's
  own kinds, which have exactly one reason.
-/
def wrongReasons
    (count : Nat) : Fault :=
  if count == 0 then
    .raised .type
      "Issue.__init__() missing 1 required positional argument: 'reason'"
  else
    .raised .type
      ("Issue.__init__() takes 2 positional arguments but " ++
        toString (count + 1) ++ " were given")

/- The message of a system fault: a number, a reason, a file. -/
def systemMessage :
    List Datum → String
  | [number, reason] =>
      "[Errno " ++ number.display ++ "] " ++ reason.display
  | [number, reason, file] =>
      "[Errno " ++ number.display ++ "] " ++ reason.display ++ ": " ++
        file.shown
  | values => together values

/-
  A fault raised from values: no value gives no message, one
  gives its text, and several give all of them in brackets.
  A failed lookup shows its key as it is shown in a list.
-/
def ofArguments
    (kind : Fault.Kind)
    (values : List Datum) : Fault :=
  if kind.isIssue && values.length != 1 then
    wrongReasons values.length
  else
    match values with
    | [] => .raised kind ""
    | [value] =>
        .raised kind
          (if kind == .lookup then value.shown else value.display)
    | several =>
        .raised kind
          (if kind == .system then
            systemMessage several
          else
            together several)

end Fault
end LinkedMarkup
