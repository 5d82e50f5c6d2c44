import LinkedMarkup.Fault
import LinkedMarkup.Text.Blank
import LinkedMarkup.Text.Case
import LinkedMarkup.Text.Split

/-
  This file defines the media types of documents and how
  they are recognised: from a header value, or from the name
  of a file.

  Key definitions include:
    * `MediaType`
    * `MediaType.name`
    * `MediaType.ofName?`
    * `MediaType.ofHeader`
    * `MediaType.suffix`
    * `MediaType.ofPath`
-/

namespace LinkedMarkup

/- The two kinds of documents. -/
inductive MediaType where
  | html
  | xhtml
  deriving DecidableEq, Repr

namespace MediaType

/- The name of a media type. -/
def name :
    MediaType → String
  | html => "text/html"
  | xhtml => "application/xhtml+xml"

/- The media type of a name. -/
def ofName?
    (s : String) : Option MediaType :=
  if s == html.name then
    some html
  else if s == xhtml.name then
    some xhtml
  else
    none

/-
  The media type that a header value gives, in any case and
  with any parameters. Nothing means HTML.
-/
def ofHeader
    (header : Option String) : Except Fault MediaType :=
  match header with
  | none => .ok html
  | some value =>
      if Text.isAllBlank value then
        .ok html
      else
        let essence := (Text.cutAtChar ';' value.toList).1
        let normal := Text.lower (String.ofList (Text.trimChars essence))
        match ofName? normal with
        | some media => .ok media
        | none => .error (.unsupportedMedia value)

/- The last part of a path that is not a lone dot or empty. -/
def fileName
    (path : String) : List Char :=
  let parts := (Text.splitOn '/' path.toList).filter
    (fun part => !part.isEmpty && part != ['.'])
  parts.getLast?.getD []

/-
  The suffix of a path's file name: what follows its last
  dot, with the dot, unless that dot is at either end.
-/
def suffix
    (path : String) : String :=
  let file := fileName path
  let tail := (file.reverse.takeWhile (· != '.')).reverse
  if tail.isEmpty || tail.length + 1 ≥ file.length then
    ""
  else
    String.ofList ('.' :: tail)

/- The media type that the name of a file suggests. -/
def ofPath
    (path : String) : MediaType :=
  if Text.lower (suffix path) == ".xhtml" then xhtml else html

end MediaType
end LinkedMarkup
