/-
  This file defines how elements of HTML nest: which of them
  have no content, which are ended by the start of others,
  and which an end tag may not reach past.

  Key definitions include:
    * `Html.isVoid`
    * `Html.endsBefore`
    * `Html.endPriority`
    * `Html.belongsToHead`
-/

namespace LinkedMarkup
namespace Html

/- Elements without content. -/
def voidElements : List String :=
  ["area", "base", "basefont", "br", "col", "frame", "hr", "img",
    "input", "isindex", "link", "meta", "param"]

/- Whether an element has no content. -/
def isVoid
    (name : String) : Bool :=
  voidElements.contains name

/- Elements that open the head, if there is none yet. -/
def headElements : List String :=
  ["script", "style", "meta", "link", "title", "base"]

/- Whether an element belongs to the head. -/
def belongsToHead
    (name : String) : Bool :=
  headElements.contains name

/- Elements that stand outside the body. -/
def framing : List String :=
  ["noframes", "frame", "frameset"]

------------------------------------------------------------
-- Ends without an end tag
------------------------------------------------------------

/- The headings. -/
def headings : List String :=
  ["h1", "h2", "h3", "h4", "h5", "h6"]

/- Elements whose start ends a head. -/
def endsHead : List String :=
  headings ++
    ["a", "abbr", "acronym", "address", "b", "bdo", "big",
      "blockquote", "body", "br", "center", "cite", "code", "dd",
      "dfn", "dir", "div", "dl", "dt", "em", "fieldset", "font",
      "form", "frameset", "hr", "i", "iframe", "img", "kbd", "li",
      "listing", "map", "menu", "ol", "p", "pre", "q", "s", "samp",
      "small", "span", "strike", "strong", "sub", "sup", "table",
      "tt", "u", "ul", "var", "xmp"]

/- Elements whose start ends a paragraph. -/
def endsParagraph : List String :=
  headings ++
    ["address", "blockquote", "body", "caption", "center", "col",
      "colgroup", "dd", "dir", "div", "dl", "dt", "fieldset", "form",
      "frameset", "head", "hr", "li", "listing", "menu", "multicol",
      "ol", "p", "pre", "table", "tbody", "td", "tfoot", "th",
      "title", "tr", "ul", "xmp"]

/- Elements whose start ends one of preformatted text. -/
def endsPreformatted : List String :=
  ["dd", "dl", "dt", "fieldset", "form", "li", "table", "ul"]

/- The elements whose start ends an open element. -/
def endedBy
    (old : String) : List String :=
  match old with
  | "a" => ["a", "fieldset", "table", "td", "th"]
  | "address" => ["dd", "dl", "dt", "form", "li", "ul"]
  | "b" => ["center", "p", "td", "th"]
  | "big" => ["p"]
  | "caption" => ["col", "colgroup", "tbody", "tfoot", "thead", "tr"]
  | "col" => ["col", "colgroup", "tbody", "tfoot", "thead", "tr"]
  | "colgroup" => ["colgroup", "tbody", "tfoot", "thead", "tr"]
  | "dd" => ["dt"]
  | "dir" => ["dd", "dl", "dt", "form", "ul"]
  | "dl" => ["form", "li"]
  | "dt" => ["dd", "dl"]
  | "font" => ["center", "td", "th"]
  | "form" => ["form"]
  | "head" => endsHead
  | "hr" => ["form"]
  | "i" => ["center"]
  | "li" => ["li"]
  | "link" => ["body", "frameset"]
  | "listing" => endsPreformatted
  | "menu" => ["dd", "dl", "dt", "form", "ul"]
  | "ol" => ["form"]
  | "option" => ["optgroup", "option"]
  | "p" => endsParagraph
  | "pre" => endsPreformatted
  | "s" => ["p"]
  | "script" => ["noscript"]
  | "small" => ["p"]
  | "span" => ["td", "th"]
  | "strike" => ["p"]
  | "style" => ["body", "frameset"]
  | "tbody" => ["tbody", "tfoot"]
  | "td" => ["tbody", "td", "tfoot", "th", "tr"]
  | "tfoot" => ["tbody"]
  | "th" => ["tbody", "td", "tfoot", "th", "tr"]
  | "thead" => ["tbody", "tfoot"]
  | "title" => ["body", "frameset"]
  | "tr" => ["tbody", "tfoot", "tr"]
  | "tt" => ["p"]
  | "u" => ["p", "td", "th"]
  | "ul" => ["address", "form", "menu", "pre"]
  | "xmp" => endsPreformatted
  | _ =>
      if headings.contains old then
        ["fieldset", "form", "li", "p", "table"]
      else
        []

/- Whether an open element ends before another one starts. -/
def endsBefore
    (new old : String) : Bool :=
  (endedBy old).contains new

------------------------------------------------------------
-- End tags
------------------------------------------------------------

/-
  The priority of an element: an end tag is ignored if an
  element of higher priority would end with its own.
-/
def endPriority
    (name : String) : Nat :=
  match name with
  | "div" => 150
  | "td" => 160
  | "th" => 160
  | "tr" => 170
  | "thead" => 180
  | "tbody" => 180
  | "tfoot" => 180
  | "table" => 190
  | "head" => 200
  | "body" => 200
  | "html" => 220
  | _ => 100

end Html
end LinkedMarkup
