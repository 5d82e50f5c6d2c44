/-
  This file defines the lines that the library reports while
  it works, by level.

  Key definitions include:
    * `LogLine`
    * `LogLine.shown`
-/

namespace LinkedMarkup

/- How important a line is. -/
inductive LogLine.Level where
  | debug
  | info
  | warning
  | error
  deriving DecidableEq, Repr

/- A line of a report. -/
structure LogLine where
  level : LogLine.Level
  text : String
  deriving DecidableEq, Repr

namespace LogLine

/- The name of a level. -/
def Level.name :
    LogLine.Level → String
  | .debug => "debug"
  | .info => "info"
  | .warning => "warning"
  | .error => "error"

/- The lines that are shown, debug lines only on request. -/
def shown
    (debug : Bool)
    (lines : List LogLine) : List LogLine :=
  lines.filter (fun l => debug || l.level != .debug)

/- A text as reports highlight it. -/
def highlighted
    (s : String) : String :=
  "\x1b[0m\x1b[32m" ++ s ++ "\x1b[0m\x1b[1m"

end LogLine
end LinkedMarkup
