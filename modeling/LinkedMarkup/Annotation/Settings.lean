import LinkedMarkup.Annotation.Prefixes
import LinkedMarkup.Fault
import LinkedMarkup.Markup.MediaType

/-
  This file defines what a caller can choose about the reading
  of annotations, and what holds for a whole document.

  Key definitions include:
    * `ListStyle`
    * `Options`
    * `Options.standard`
    * `Settings`
    * `Settings.isHtml`
-/

namespace LinkedMarkup

/- How lists are written: by member, or as collections. -/
inductive ListStyle where
  | members
  | collection
  deriving DecidableEq, Repr

namespace ListStyle

/- The name of a list style. -/
def name :
    ListStyle → String
  | members => "members"
  | collection => "collection"

/- The list style of a name. -/
def ofName
    (s : String) : Except Fault ListStyle :=
  if s == members.name then
    .ok members
  else if s == collection.name then
    .ok collection
  else
    .error (.unknownListStyle s)

end ListStyle

/- What a caller can choose. -/
structure Options where
  listStyle : ListStyle
  statesVocabulary : Bool
  prefixes : Entries
  terms : Entries
  deriving DecidableEq, Repr

namespace Options

/- The choices made for callers that make none. -/
def standard : Options :=
  ⟨.members, true, Prefixes.initial, Prefixes.initialTerms⟩

end Options

/- What holds for a whole document. -/
structure Settings where
  media : MediaType
  options : Options
  deriving DecidableEq, Repr

namespace Settings

/- Whether the document is HTML. -/
def isHtml
    (s : Settings) : Bool :=
  s.media == .html

end Settings

end LinkedMarkup
