import LinkedMarkup.Fault

/-
  This file defines the signal by which a host asks for a run
  to be stopped. Only the first request counts.

  Key definitions include:
    * `Signal`
    * `Signal.abort`
    * `Signal.check`
-/

namespace LinkedMarkup

/- Whether a run is to be stopped, and why if that is said. -/
structure Signal where
  aborted : Bool
  reason : Option String
  deriving DecidableEq, Repr

namespace Signal

/- A signal that asks for nothing. -/
def start : Signal :=
  ⟨false, none⟩

/- Ask for a run to be stopped, unless that has been asked. -/
def abort
    (reason : Option String)
    (s : Signal) : Signal :=
  if s.aborted then s else ⟨true, reason⟩

/- The reason that is given when no other one is. -/
def defaultReason : String :=
  "Parse cancelled"

/- The fault of going on although a stop was asked for. -/
def check
    (s : Signal) : Option Fault :=
  if s.aborted then
    some (.cancelled
      ((s.reason.filter (fun r => !r.isEmpty)).getD defaultReason))
  else
    none

end Signal
end LinkedMarkup
