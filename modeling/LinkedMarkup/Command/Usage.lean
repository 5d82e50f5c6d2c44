import LinkedMarkup.Command.Job

/-
  This file defines how the arguments of the command are read:
  options by their names, by a unique beginning of these or by
  a letter, and the source.

  Key definitions include:
    * `Usage.Flag`
    * `Usage.Piece`
    * `Usage.piece?`
    * `Usage.Wish`
    * `Usage.Wish.outcome?`
    * `Usage.Draft`
    * `Usage.read`
-/

namespace LinkedMarkup
namespace Usage

------------------------------------------------------------
-- Flags
------------------------------------------------------------

/- The options of the command. -/
inductive Flag where
  | help
  | version
  | debug
  | base
  | contentType
  | listStyle
  | output
  deriving DecidableEq, Repr

namespace Flag

/- Every option. -/
def all : List Flag :=
  [help, version, debug, base, contentType, listStyle, output]

/- The name of an option. -/
def name :
    Flag → String
  | help => "--help"
  | version => "--version"
  | debug => "--debug"
  | base => "--base"
  | contentType => "--content-type"
  | listStyle => "--list-style"
  | output => "--output"

/- The option of a letter. -/
def ofLetter? :
    Char → Option Flag
  | 'h' => some help
  | 'v' => some version
  | _ => none

/- Whether an option takes a value. -/
def takesValue :
    Flag → Bool
  | help => false
  | version => false
  | debug => false
  | base => true
  | contentType => true
  | listStyle => true
  | output => true

/- The options whose names start with a text. -/
def startingWith
    (cs : List Char) : List Flag :=
  all.filter (fun f => Text.startsWith cs f.name.toList)

end Flag

------------------------------------------------------------
-- Arguments
------------------------------------------------------------

/-
  What one argument is: a plain text, an option by name with
  the value given in it, options by letter with what follows
  the first one, the divider after which all is plain, or an
  option that is not known.
-/
inductive Piece where
  | plain (text : String)
  | named (flag : Flag) (value : Option String)
  | lettered (flag : Flag) (tail : List Char)
  | divider
  | unknown
  deriving DecidableEq, Repr

/-
  Whether a text is a negative number. It may end in a line
  feed.
-/
def isNegativeNumber
    (cs : List Char) : Bool :=
  match cs with
  | '-' :: rest =>
      let body := if rest.getLast? == some '\n' then rest.dropLast
        else rest
      let fraction := body.dropWhile Text.isDecimal
      (!body.isEmpty && fraction.isEmpty) ||
        match fraction with
        | '.' :: digits => !digits.isEmpty && digits.all Text.isDecimal
        | _ => false
  | _ => false

/- What an argument is that is no option of the command. -/
def otherwise
    (s : String) : Piece :=
  if isNegativeNumber s.toList || s.toList.contains ' ' then
    .plain s
  else
    .unknown

/- What an argument with two dashes is, none if it is unclear. -/
def longPiece?
    (s : String) : Option Piece :=
  let (name, value) := Text.cutAtChar '=' s.toList
  let given := value.map String.ofList
  match Flag.all.find? (fun f => f.name.toList == name) with
  | some flag => some (.named flag given)
  | none =>
      match Flag.startingWith name with
      | [] => some (otherwise s)
      | [flag] => some (.named flag given)
      | _ => none

/-
  What an argument with one dash is. A letter may be followed
  by more of them, also after an equals sign.
-/
def shortPiece
    (s : String) : Piece :=
  match s.toList with
  | _ :: letter :: tail =>
      match Flag.ofLetter? letter, tail with
      | some flag, ['='] => .named flag (some "")
      | some flag, '=' :: tail => .lettered flag tail
      | some flag, tail => .lettered flag tail
      | none, _ => otherwise s
  | _ => .plain s

/- What an argument is, none if it is unclear. -/
def piece?
    (s : String) : Option Piece :=
  match s.toList with
  | ['-'] => some (.plain s)
  | '-' :: '-' :: _ => longPiece? s
  | '-' :: _ => some (shortPiece s)
  | _ => some (.plain s)

/- What the arguments are, none if one is unclear. -/
def pieces? :
    List String → Option (List Piece)
  | [] => some []
  | "--" :: rest => some (.divider :: rest.map .plain)
  | s :: rest =>
      match piece? s, pieces? rest with
      | some p, some ps => some (p :: ps)
      | _, _ => none

------------------------------------------------------------
-- Wishes
------------------------------------------------------------

/- What a user asks for. -/
inductive Wish where
  | run (job : Job)
  | version
  | help
  | mistake
  deriving DecidableEq, Repr

/- What a wish leaves behind in a folder, if it is for a job. -/
def Wish.outcome?
    (f : Folder) :
    Wish → Option Job.Outcome
  | run job => some (job.runIn f)
  | version => none
  | help => none
  | mistake => none

/- What has been read of a job; `excess` is what has no place. -/
structure Draft where
  source : Option String
  base : Option String
  media : Option MediaType
  listStyle : ListStyle
  output : Option String
  debug : Bool
  excess : Bool
  deriving DecidableEq, Repr

namespace Draft

/- What is taken for granted when nothing has been read. -/
def start : Draft :=
  ⟨none, none, none, .members, none, false, false⟩

/- What a user asks for whose arguments have all been read. -/
def wish
    (d : Draft) : Wish :=
  match d.source, d.excess with
  | some source, false =>
      .run ⟨Path.ofString source, d.base, d.media, d.listStyle,
        (d.output.filter (fun o => !o.isEmpty)).map Path.ofString,
        d.debug⟩
  | _, _ => .mistake

/- Take a plain argument: the source, or one too many. -/
def takePlain
    (d : Draft)
    (s : String) : Draft :=
  match d.source with
  | none => { d with source := some s }
  | some _ => { d with excess := true }

/- Take the value of an option, if it is one of its choices. -/
def takeValue?
    (d : Draft)
    (flag : Flag)
    (value : String) : Option Draft :=
  match flag with
  | .base => some { d with base := some value }
  | .output => some { d with output := some value }
  | .contentType =>
      (MediaType.ofName? value).map (fun m => { d with media := some m })
  | .listStyle =>
      (ListStyle.ofName value).toOption.map (fun style =>
        { d with listStyle := style })
  | _ => none

end Draft

------------------------------------------------------------
-- Reading
------------------------------------------------------------

/- Options that end the reading at once. -/
def immediate :
    Flag → Wish
  | .version => .version
  | .help => .help
  | _ => .mistake

/-
  Read the arguments from what has been read so far. The
  divider is passed over beside the source, and is one
  argument too many anywhere else.
-/
def readFrom
    (d : Draft) :
    List Piece → Wish
  | [] => d.wish
  | .plain s :: .divider :: rest =>
      match d.source with
      | none => readFrom (d.takePlain s) rest
      | some _ => readFrom { d with excess := true } rest
  | .plain s :: rest => readFrom (d.takePlain s) rest
  | .divider :: rest =>
      match d.source with
      | none => readFrom d rest
      | some _ => readFrom { d with excess := true } rest
  | .unknown :: rest => readFrom { d with excess := true } rest
  | .lettered flag tail :: _ =>
      if tail.all (fun c => (Flag.ofLetter? c).isSome) then
        immediate flag
      else
        .mistake
  | .named flag (some value) :: rest =>
      match d.takeValue? flag value with
      | some next => readFrom next rest
      | none => .mistake
  | .named flag none :: rest =>
      if flag == .debug then
        readFrom { d with debug := true } rest
      else if !flag.takesValue then
        immediate flag
      else
        match rest with
        | .plain value :: rest =>
            match d.takeValue? flag value with
            | some next => readFrom next rest
            | none => .mistake
        | _ => .mistake

/- What a user asks for with arguments. -/
def read
    (arguments : List String) : Wish :=
  match pieces? arguments with
  | some pieces => readFrom .start pieces
  | none => .mistake

/- How the command is used. -/
def summary : String :=
  "usage: linked-markup [-h] [-v] [--debug] [--base BASE_IRI] " ++
    "[--content-type TYPE] [--list-style STYLE] " ++
    "[--output OUTPUT_FILE] RDFA_SOURCE\n"

end Usage
end LinkedMarkup
