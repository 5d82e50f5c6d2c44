import LinkedMarkup.Markup.Html.RawText

/-
  This file defines the tokens of HTML: tags, text, and the
  places of comments and of the document type. Every text has
  tokens; nothing is an error.

  Key definitions include:
    * `Html.Token`
    * `Html.afterComment`
    * `Html.startTag`
    * `Html.endTag`
    * `Html.firstTokens`
    * `Html.tokens`
-/

namespace LinkedMarkup
namespace Html

/-
  A token. A start tag that the text ends in is broken. Tags
  keep whether they close themselves.
-/
inductive Token where
  | opened (name : String) (attributes : Entries) (closes : Bool)
  | broken (name : String)
  | closed (name : String)
  | text (data : String)
  | aside
  | documentType
  deriving DecidableEq, Repr

------------------------------------------------------------
-- Comments
------------------------------------------------------------

/- What follows a comment, from what follows its start. -/
def afterComment :
    List Char → List Char
  | '>' :: rest => rest
  | '-' :: '>' :: rest => rest
  | cs => scan cs
where
  /- What follows the next end of a comment. -/
  scan :
      List Char → List Char
    | [] => []
    | '-' :: '-' :: '>' :: rest => rest
    | '-' :: '-' :: '!' :: '>' :: rest => rest
    | _ :: rest => scan rest

/- Whether a text starts with the word for document types. -/
def startsDocumentType
    (cs : List Char) : Bool :=
  (cs.take 7).map Text.asciiLowerChar == "doctype".toList

------------------------------------------------------------
-- Tokens
------------------------------------------------------------

/- A token of text, nothing if it is empty. -/
def textToken
    (cs : List Char) : List Token :=
  if cs.isEmpty then [] else [.text (String.ofList cs)]

/- The tokens of a start tag and of raw content after it. -/
def startTag
    (cs : List Char) : List Token × List Char :=
  let name := nameOf (cs.takeWhile (fun c => !endsTagName c))
  match attributes (cs.dropWhile (fun c => !endsTagName c)) with
  | none => ([.broken name], [])
  | some (entries, true, rest) => ([.opened name entries true], rest)
  | some (entries, false, rest) =>
      match rawKind? name with
      | none => ([.opened name entries false], rest)
      | some kind =>
          let content := rawText kind name rest
          (.opened name entries false :: textToken content.1, content.2)

/- The tokens of an end tag; it may have attributes. -/
def endTag
    (cs : List Char) : List Token × List Char :=
  let name := nameOf (cs.takeWhile (fun c => !endsTagName c))
  match attributes (cs.dropWhile (fun c => !endsTagName c)) with
  | none => ([], [])
  | some (_, _, rest) => ([.closed name], rest)

/- A character as text, with what follows it up to markup. -/
def textRun
    (c : Char)
    (rest : List Char) : List Token × List Char :=
  (textToken (decode false (c :: rest.takeWhile (· != '<'))),
    rest.dropWhile (· != '<'))

/- The first tokens of a text that is not empty, and the rest. -/
def firstTokens
    (c : Char)
    (rest : List Char) : List Token × List Char :=
  if c != '<' then
    textRun c rest
  else
    match rest with
    | '!' :: '-' :: '-' :: after => ([.aside], afterComment after)
    | '!' :: after =>
        if startsDocumentType after then
          ([.documentType], dropPast '>' after)
        else
          ([.aside], dropPast '>' after)
    | '?' :: after => ([.aside], dropPast '>' after)
    | '/' :: '>' :: after => ([], after)
    | '/' :: d :: after =>
        if Text.isAsciiLetter d then
          endTag (d :: after)
        else
          ([.aside], dropPast '>' (d :: after))
    | d :: after =>
        if Text.isAsciiLetter d then
          startTag (d :: after)
        else
          textRun c rest
    | [] => textRun c []

/-
  The tokens of a text. Each step takes a character, so the
  text's length is enough of a budget.
-/
def tokensFrom :
    Nat → List Char → List Token
  | 0, _ => []
  | _, [] => []
  | budget + 1, c :: rest =>
      let found := firstTokens c rest
      found.1 ++ tokensFrom budget found.2

/- The tokens of a text, after a byte order mark. -/
def tokens
    (cs : List Char) : List Token :=
  let body :=
    match cs with
    | '\uFEFF' :: rest => rest
    | _ => cs
  let clean := normalised body
  tokensFrom clean.length clean

end Html
end LinkedMarkup
