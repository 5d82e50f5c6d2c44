import LinkedMarkup.Text.Case
import LinkedMarkup.Text.Digit
import LinkedMarkup.Text.Split

/-
  This file defines which texts are well-formed language
  tags by the grammar of BCP 47, and their lower-case form.

  Key definitions include:
    * `LanguageTag.Expecting`
    * `LanguageTag.next?`
    * `LanguageTag.isWellFormed`
-/

namespace LinkedMarkup
namespace LanguageTag

/- Tags that are registered as they stand. -/
def registered : List String :=
  ["art-lojban", "cel-gaulish", "en-gb-oed", "i-ami", "i-bnn",
    "i-default", "i-enochian", "i-hak", "i-klingon", "i-lux",
    "i-mingo", "i-navajo", "i-pwn", "i-tao", "i-tay", "i-tsu",
    "no-bok", "no-nyn", "sgn-be-fr", "sgn-be-nl", "sgn-ch-de",
    "zh-guoyu", "zh-hakka", "zh-min", "zh-min-nan", "zh-xiang"]

/- What may come next while the subtags of a tag are read. -/
inductive Expecting where
  | language
  | extended (read : Nat)
  | script
  | region
  | variant
  | extension (required : Bool)
  | privateUse (required : Bool)
  deriving DecidableEq, Repr

/- Whether a subtag holds letters only. -/
def isLetters
    (subtag : List Char) : Bool :=
  subtag.all Text.isAsciiLetter

/- Whether a subtag holds letters and digits only. -/
def isAlphanumeric
    (subtag : List Char) : Bool :=
  subtag.all Text.isAsciiAlphanumeric

/- Whether a subtag is a region: two letters or three digits. -/
def isRegion
    (subtag : List Char) : Bool :=
  (subtag.length == 2 && isLetters subtag) ||
    (subtag.length == 3 && subtag.all Text.isAsciiDigit)

/-
  Whether a subtag is a variant: five letters and digits, or
  four of them if the first is a digit.
-/
def isVariant
    (subtag : List Char) : Bool :=
  isAlphanumeric subtag &&
    match subtag with
    | [] => false
    | c :: _ =>
        (Text.isAsciiLetter c && subtag.length ≥ 5) ||
          (Text.isAsciiDigit c && subtag.length ≥ 4)

/- What a subtag leads to in the main part of a tag. -/
def nextMain?
    (expecting : Expecting)
    (subtag : List Char) : Option Expecting :=
  match expecting with
  | .extended read =>
      if subtag.length == 3 && isLetters subtag then
        if read < 3 then some (.extended (read + 1)) else none
      else if subtag.length == 4 && isLetters subtag then
        some .region
      else if isRegion subtag || isVariant subtag then
        some .variant
      else
        none
  | .script =>
      if subtag.length == 4 && isLetters subtag then
        some .region
      else if isRegion subtag || isVariant subtag then
        some .variant
      else
        none
  | .region =>
      if isRegion subtag || isVariant subtag then
        some .variant
      else
        none
  | .variant =>
      if isVariant subtag then some .variant else none
  | _ => none

/- What a subtag leads to, nothing if it may not stand there. -/
def next?
    (expecting : Expecting)
    (subtag : List Char) : Option Expecting :=
  if subtag.isEmpty || subtag.length > 8 then
    none
  else
    match expecting with
    | .language =>
        if subtag.length < 2 || !isLetters subtag then
          none
        else if subtag.length < 4 then
          some (.extended 0)
        else
          some .script
    | .privateUse _ =>
        if isAlphanumeric subtag then some (.privateUse false) else none
    | .extension required =>
        if subtag.length == 1 && isAlphanumeric subtag then
          if required then
            none
          else if subtag == ['x'] then
            some (.privateUse true)
          else
            some (.extension true)
        else if isAlphanumeric subtag then
          some (.extension false)
        else
          none
    | _ =>
        if subtag == ['x'] then
          some (.privateUse true)
        else if subtag.length == 1 && isAlphanumeric subtag then
          some (.extension true)
        else
          nextMain? expecting subtag

/- Whether a tag may end here. -/
def mayEnd :
    Expecting → Bool
  | .language => false
  | .extension required => !required
  | .privateUse required => !required
  | _ => true

/- Whether subtags may follow in this order. -/
def accepts
    (expecting : Expecting) :
    List (List Char) → Bool
  | [] => mayEnd expecting
  | subtag :: rest =>
      match next? expecting subtag with
      | none => false
      | some following => accepts following rest

/- Whether a lower-case text is a well-formed language tag. -/
def isWellFormed
    (tag : String) : Bool :=
  registered.contains tag ||
    match tag.toList with
    | 'x' :: '-' :: rest =>
        !rest.isEmpty &&
          rest.all (fun c => Text.isAsciiAlphanumeric c || c == '-')
    | cs => accepts .language (Text.splitOn '-' cs)

end LanguageTag
end LinkedMarkup
