import LinkedMarkup.Markup.Html.Construction
import LinkedMarkup.Markup.Walk
import LinkedMarkup.Markup.Xml.Construction

/-
  This file defines how the text of a document is read: HTML
  tolerantly, the other media type strictly.

  Key definitions include:
    * `Document.isBlank`
    * `Document.read`
-/

namespace LinkedMarkup
namespace Document

/- Whether a text holds nothing but ASCII blanks. -/
def isBlank
    (text : String) : Bool :=
  text.toList.all (fun c =>
    c == ' ' || ('\t' ≤ c && c ≤ '\r'))

/- The tree of a document. -/
def read
    (media : MediaType)
    (text : String) : Except Fault Tree :=
  if isBlank text then
    .error .emptyDocument
  else
    match media with
    | .html =>
        match Html.tree? text.toList with
        | some t => .ok t
        | none => .error .emptyDocument
    | .xhtml =>
        match Xml.tree? text.toList with
        | some t => .ok t
        | none => .error (.malformedDocument media.name)

end Document
end LinkedMarkup
