import LinkedMarkup.Markup.Html.Attribute

/-
  This file defines the content of elements that hold text and
  no markup: where it ends, and how it is read.

  Key definitions include:
    * `Html.RawKind`
    * `Html.rawKind?`
    * `Html.untilEndTag`
    * `Html.ScriptState`
    * `Html.scriptText`
    * `Html.rawText`
-/

namespace LinkedMarkup
namespace Html

/-
  How the content of some elements is read: as it stands,
  with references replaced, as a script, or to the end.
-/
inductive RawKind where
  | raw
  | decoded
  | script
  | endless
  deriving DecidableEq, Repr

/- The elements whose content is no markup. -/
def rawKind?
    (name : String) : Option RawKind :=
  if ["iframe", "noembed", "noframes", "style", "xmp"].contains name then
    some .raw
  else if ["textarea", "title"].contains name then
    some .decoded
  else if name == "script" then
    some .script
  else if name == "plaintext" then
    some .endless
  else
    none

/- Whether a text starts with a name, in any case, that ends. -/
def startsName
    (name : List Char)
    (cs : List Char) : Bool :=
  (cs.take name.length).map Text.asciiLowerChar == name &&
    match cs.drop name.length with
    | c :: _ => endsTagName c
    | [] => false

/- Whether a text starts with the end tag of a name. -/
def startsEndTag
    (name : List Char) :
    List Char → Bool
  | '<' :: '/' :: rest => startsName name rest
  | _ => false

/- The text up to the end tag of an element, and the rest. -/
def untilEndTag
    (name : List Char) :
    List Char → List Char × List Char
  | [] => ([], [])
  | c :: rest =>
      if startsEndTag name (c :: rest) then
        ([], c :: rest)
      else
        let more := untilEndTag name rest
        (c :: more.1, more.2)

/-
  Where the reader of a script is: outside comments, inside
  one after some hyphens, or in a script inside a comment.
-/
inductive ScriptState where
  | plain
  | escaped (hyphens : Nat)
  | nested (hyphens : Nat)
  deriving DecidableEq, Repr

/- The name of scripts. -/
def scriptName : List Char :=
  "script".toList

/- The state after one more character of a script. -/
def ScriptState.after
    (s : ScriptState)
    (cs : List Char) : ScriptState :=
  let comments := fun (make : Nat → ScriptState) (hyphens : Nat) =>
    match cs with
    | '-' :: _ => make (hyphens + 1)
    | '>' :: _ => if hyphens ≥ 2 then .plain else make 0
    | _ => make 0
  match s with
  | .plain => .plain
  | .escaped hyphens =>
      match cs with
      | '<' :: rest =>
          if startsName scriptName rest then .nested 0 else .escaped 0
      | _ => comments .escaped hyphens
  | .nested hyphens =>
      if startsEndTag scriptName cs then
        .escaped 0
      else
        comments .nested hyphens

/-
  The text of a script, and the rest, which starts with the
  end tag. The number counts the characters that open a
  comment and have been looked at.
-/
def scriptText
    (s : ScriptState) :
    Nat → List Char → List Char × List Char
  | _, [] => ([], [])
  | n + 1, c :: rest =>
      let more := scriptText s n rest
      (c :: more.1, more.2)
  | 0, c :: rest =>
      let cs := c :: rest
      let isNested :=
        match s with
        | .nested _ => true
        | _ => false
      if !isNested && startsEndTag scriptName cs then
        ([], cs)
      else if s == .plain && Text.startsWith "<!--".toList cs then
        let more := scriptText (.escaped 2) 3 rest
        (c :: more.1, more.2)
      else
        let more := scriptText (s.after cs) 0 rest
        (c :: more.1, more.2)

/- The content of an element that is no markup, and the rest. -/
def rawText
    (kind : RawKind)
    (name : String)
    (cs : List Char) : List Char × List Char :=
  match kind with
  | .raw => untilEndTag name.toList cs
  | .decoded =>
      let found := untilEndTag name.toList cs
      (decode false found.1, found.2)
  | .script => scriptText .plain 0 cs
  | .endless => (cs, [])

end Html
end LinkedMarkup
