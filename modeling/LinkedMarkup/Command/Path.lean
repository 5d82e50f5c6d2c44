import LinkedMarkup.Encoding.Utf8
import LinkedMarkup.Markup.MediaType
import LinkedMarkup.Number.Datum
import LinkedMarkup.Text.Digit

/-
  This file defines the paths of files in short form, the
  addresses of files, and a folder of files that paths are
  looked up in.

  Key definitions include:
    * `Path`
    * `Path.ofString`
    * `Path.text`
    * `Path.suffix`
    * `Found`
    * `Folder`
    * `Folder.follow`
    * `Folder.find`
    * `Folder.address`
    * `Folder.nameOf?`
    * `Folder.refusal?`
-/

namespace LinkedMarkup

------------------------------------------------------------
-- Paths
------------------------------------------------------------

/- A path: how it is rooted, and its names. -/
structure Path where
  root : String
  names : List String
  deriving DecidableEq, Repr

namespace Path

/-
  The root of a path. Exactly two strokes in front are a root
  of their own.
-/
def rootOf
    (cs : List Char) : String :=
  match cs with
  | '/' :: '/' :: '/' :: _ => "/"
  | '/' :: '/' :: _ => "//"
  | '/' :: _ => "/"
  | _ => ""

/- The path that a text writes, without its idle parts. -/
def ofString
    (s : String) : Path :=
  ⟨rootOf s.toList,
    ((Text.splitOn '/' s.toList).filter
      (fun name => !name.isEmpty && name != ['.'])).map String.ofList⟩

/- A path as text. -/
def text
    (p : Path) : String :=
  if p.root.isEmpty && p.names.isEmpty then
    "."
  else
    p.root ++ String.intercalate "/" p.names

/- The suffix of the last name of a path, in lower case. -/
def suffix
    (p : Path) : String :=
  Text.lower (MediaType.suffix p.text)

/- A fault of a file at a path. -/
def fault
    (number : Nat)
    (reason : String)
    (p : Path) : Fault :=
  .fileFault number reason (Datum.quoted p.text)

/- A path that names nothing. -/
def missing : Path → Fault :=
  fault 2 "No such file or directory"

/- A path that goes on below a file. -/
def belowFile : Path → Fault :=
  fault 20 "Not a directory"

/- A path that names a folder. -/
def isFolder : Path → Fault :=
  fault 21 "Is a directory"

end Path

------------------------------------------------------------
-- Addresses
------------------------------------------------------------

/- Whether an address shows a byte as it is. -/
def Path.isPlainByte
    (byte : Nat) : Bool :=
  byte < 128 &&
    (Text.isAsciiAlphanumeric (Char.ofNat byte) ||
      ['_', '.', '-', '~', '/'].contains (Char.ofNat byte))

/- One byte as addresses show it. -/
def Path.addressByte
    (byte : Nat) : List Char :=
  if Path.isPlainByte byte then
    [Char.ofNat byte]
  else
    '%' :: (Datum.hexDigits 2 byte).map Char.toUpper

/- A text as addresses show it. -/
def Path.addressText
    (s : String) : String :=
  String.ofList ((Utf8.encode (s.toList.map Char.toNat)).flatMap
    Path.addressByte)

------------------------------------------------------------
-- Folders
------------------------------------------------------------

/- What a path leads to. -/
inductive Found where
  | missing
  | folder
  | file (bytes : List Nat)
  deriving DecidableEq, Repr

/-
  A folder: its address, which ends in a stroke, and its files
  by their names, those in inner folders with strokes.
-/
structure Folder where
  location : String
  files : List (String × List Nat)
  deriving Repr

namespace Folder

/- What is found under names inside a folder. -/
def at?
    (f : Folder)
    (names : List String) : Found :=
  let name := String.intercalate "/" names
  match f.files.lookup name with
  | some bytes => .file bytes
  | none =>
      if names.isEmpty ||
          f.files.any (fun entry =>
            Text.startsWith (name ++ "/").toList entry.1.toList) then
        .folder
      else
        .missing

/- A place: names inside a folder, or somewhere outside it. -/
inductive Place where
  | inside (names : List String)
  | outside
  deriving DecidableEq, Repr

/- What is found at a place. Nothing is known of the outside. -/
def look
    (f : Folder)
    (place : Place) : Found :=
  match place with
  | .inside names => f.at? names
  | .outside => .folder

/- The place that a name leads to from another place. -/
def step
    (place : Place)
    (name : String) : Place :=
  match place with
  | .outside => .outside
  | .inside names =>
      if name != ".." then
        .inside (names ++ [name])
      else if names.isEmpty then
        .outside
      else
        .inside names.dropLast

/- Where following names through folders ends. -/
inductive Trail where
  | reached (place : Place)
  | belowFile
  | lost
  deriving DecidableEq, Repr

/- Follow names from a place, through folders only. -/
def follow
    (f : Folder) :
    Place → List String → Trail
  | place, [] => .reached place
  | place, name :: rest =>
      match f.look place with
      | .folder =>
          if place == .outside && name != ".." then
            .lost
          else
            follow f (step place name) rest
      | .file _ => .belowFile
      | .missing => .lost

/- Where paths start: in the folder, or at a root. -/
def start
    (p : Path) : Place :=
  if p.root.isEmpty then .inside [] else .outside

/- What a path leads to. -/
def find
    (f : Folder)
    (p : Path) : Found :=
  match f.follow (start p) p.names with
  | .reached place => f.look place
  | .belowFile => .missing
  | .lost => .missing

/- The address of what a path leads to. -/
def address
    (f : Folder)
    (p : Path) : String :=
  match f.follow (start p) p.names with
  | .reached (.inside names) =>
      f.location ++ Path.addressText (String.intercalate "/" names)
  | _ => "file://" ++ Path.addressText p.text

/- The name that a folder lists a file at a path by. -/
def nameOf?
    (f : Folder)
    (p : Path) : Option String :=
  match f.follow (start p) p.names.dropLast, p.names.getLast? with
  | .reached (.inside names), some last =>
      some (String.intercalate "/" (names ++ [last]))
  | _, _ => none

/- Why a new file cannot be made at a path, if it cannot. -/
def obstacle?
    (f : Folder)
    (p : Path) : Option Fault :=
  match f.follow (start p) p.names.dropLast with
  | .belowFile => some p.belowFile
  | .lost => some p.missing
  | .reached place =>
      match f.look place with
      | .folder => none
      | .file _ => some p.belowFile
      | .missing => some p.missing

/- Why a file cannot be written at a path, if it cannot. -/
def refusal?
    (f : Folder)
    (p : Path) : Option Fault :=
  match f.find p with
  | .folder => some p.isFolder
  | .file _ => none
  | .missing => f.obstacle? p

end Folder
end LinkedMarkup
