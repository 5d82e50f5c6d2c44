import LinkedMarkup.Command.Usage

/-
  This file runs the command on the files of the machine. It
  looks at the files that a job names, lets the job decide,
  and prints or saves what comes out.

  Key definitions include:
    * `Machine.look`
    * `Machine.save`
    * `Machine.perform`
    * `Machine.command`
    * `main`
-/

namespace LinkedMarkup
namespace Machine

/- What a path leads to. -/
def look
    (p : Path) : IO Found := do
  try
    let bytes ← IO.FS.readBinFile p.text
    return .file (bytes.toList.map UInt8.toNat)
  catch
    | .inappropriateType _ code _ =>
        return if code == 20 then .missing else .folder
    | _ => return .missing

/- The address of what a path leads to. -/
def address
    (p : Path) : IO String := do
  try
    let place ← IO.FS.realPath p.text
    return "file://" ++ Path.addressText place.toString
  catch _ =>
    return "file://" ++ Path.addressText p.text

/- Save a text at a path; why that could not be done, if so. -/
def save
    (p : Path)
    (text : String) : IO (Option Fault) := do
  try
    IO.FS.writeFile p.text text
    return none
  catch
    | .inappropriateType _ code _ =>
        return some (if code == 20 then p.belowFile else p.isFolder)
    | .permissionDenied _ _ _ =>
        return some (p.fault 13 "Permission denied")
    | _ => return some p.missing

/- Print the lines of a report. -/
def report
    (debug : Bool)
    (lines : List LogLine) : IO Unit :=
  (LogLine.shown debug lines).forM (fun line =>
    IO.println (line.level.name ++ ": " ++ line.text))

/- Report an outcome, print its document, and give its exit code. -/
def conclude
    (debug : Bool)
    (outcome : Job.Outcome) : IO UInt32 := do
  report debug outcome.lines
  match outcome.printed with
  | some d => IO.print d.text
  | none => pure ()
  match outcome.ending with
  | .exit code => return code.toUInt32
  | .fault cause =>
      IO.eprintln (cause.kind.name ++ ": " ++ cause.text)
      return 1

/- Do a job. -/
def perform
    (job : Job) : IO UInt32 := do
  let found ← look job.source
  let place ← address job.source
  let outcome := job.run found place none
  match outcome.saved with
  | none => conclude job.debug outcome
  | some (path, d) =>
      match ← save path d.text with
      | none => conclude job.debug outcome
      | refusal => conclude job.debug (job.run found place refusal)

/- Do what the arguments ask for. -/
def command
    (arguments : List String) : IO UInt32 := do
  match Usage.read arguments with
  | .run job => perform job
  | .version =>
      IO.println Gathering.version
      return 0
  | .help =>
      IO.print Usage.summary
      return 0
  | .mistake =>
      IO.eprint Usage.summary
      return 2

end Machine
end LinkedMarkup

/- The command. -/
def main
    (arguments : List String) : IO UInt32 :=
  LinkedMarkup.Machine.command arguments
