import LinkedMarkup.Delivery.Intake

/-
  This file defines the reading of a document into a graph:
  its quads are handed over to a host that keeps them.

  Key definitions include:
    * `Gathering.version`
    * `Gathering.description`
    * `Gathering.run`
-/

namespace LinkedMarkup
namespace Gathering

/- The version of the library. -/
def version : String :=
  "0.1.0"

/- The version of the library and of its reader of markup. -/
def description : String :=
  "rdfa2quads " ++ version ++ " (lxml 6.1.3)"

/- The line that is reported before anything is read. -/
def openingLine : LogLine :=
  ⟨.debug, "RDFa parser initialised: " ++ description⟩

/- The graph of a request's document, and the lines reported. -/
def run
    (r : Request) : Except Fault Graph × List LogLine :=
  let (result, desk) := Handover.run Intake.host .start .standard r
  let lines := openingLine :: desk.lines.toList
  match result with
  | .success => (.ok desk.far, lines)
  | .failure reason => (.error (.extractionFailed reason), lines)

end Gathering
end LinkedMarkup
