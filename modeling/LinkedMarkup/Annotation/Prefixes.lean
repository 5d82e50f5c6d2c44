import LinkedMarkup.Text.Blank
import LinkedMarkup.Text.Case
import LinkedMarkup.Text.Digit
import LinkedMarkup.Text.Entries
import LinkedMarkup.Text.Split

/-
  This file defines prefix declarations: the short names that
  an element gives to the starts of IRIs, and the names and
  terms that every document starts with.

  Key definitions include:
    * `Prefixes.isName`
    * `Prefixes.pairs`
    * `Prefixes.declared`
    * `Prefixes.extended`
    * `Prefixes.initial`
    * `Prefixes.initialTerms`
-/

namespace LinkedMarkup
namespace Prefixes

------------------------------------------------------------
-- Names
------------------------------------------------------------

/- Whether a name may start with a character. -/
def isNameStart
    (c : Char) : Bool :=
  Text.isAsciiLetter c || c == '_'

/- Whether a name may go on with a character. -/
def isNameChar
    (c : Char) : Bool :=
  isNameStart c || Text.isAsciiDigit c || c == '.' || c == '-'

/-
  Whether a text is a name. One line end after it does no
  harm.
-/
def isName
    (cs : List Char) : Bool :=
  match cs with
  | [] => false
  | c :: rest =>
      isNameStart c &&
        match rest.dropWhile isNameChar with
        | [] => true
        | tail => tail == ['\n']

/- Whether a name can be mapped: any but a lone underscore. -/
def isMappable
    (name : String) : Bool :=
  name != "_" && isName name.toList

------------------------------------------------------------
-- Declarations
------------------------------------------------------------

/-
  The pairs among words: a word that ends in a colon, with
  something before it, and the word that follows.
-/
def pairs :
    List String → List (String × String)
  | [] => []
  | [_] => []
  | first :: second :: rest =>
      if first.toList.getLast? == some ':' && first.length ≥ 2 then
        (String.ofList first.toList.dropLast, second) :: pairs rest
      else
        pairs (second :: rest)

/- Declare a name in lower case, if it can be mapped. -/
def declare
    (done : Entries)
    (name start : String) : Entries :=
  let lowered := Text.lower name
  if isMappable lowered then done.set lowered start else done

/- The name that an attribute such as `xmlns:ex` declares. -/
def declaredName?
    (key : String) : Option String :=
  (Text.dropFront? "xmlns:".toList key.toList).map String.ofList

/- What the attributes for single names declare. -/
def declaredSingly
    (attributes : Entries) : Entries :=
  attributes.foldl
    (fun done entry =>
      match declaredName? entry.1 with
      | none => done
      | some name =>
          if Text.isAllBlank entry.2 then
            done
          else
            declare done name (Text.trim entry.2))
    []

/-
  All that an element declares; the attribute for many names
  overrides those for single ones.
-/
def declared
    (attributes : Entries) : Entries :=
  match attributes.get? "prefix" with
  | none => declaredSingly attributes
  | some value =>
      (pairs (Text.words value)).foldl
        (fun done pair => declare done pair.1 pair.2)
        (declaredSingly attributes)

/- The names in scope after declarations. -/
def extended
    (inherited declarations : Entries) : Entries :=
  inherited.merge declarations

------------------------------------------------------------
-- The initial context
------------------------------------------------------------

/- The names that every document starts with. -/
def initial : Entries :=
  [
    ("as", "https://www.w3.org/ns/activitystreams#"),
    ("cc", "http://creativecommons.org/ns#"),
    ("csvw", "http://www.w3.org/ns/csvw#"),
    ("ctag", "http://commontag.org/ns#"),
    ("dc", "http://purl.org/dc/terms/"),
    ("dc11", "http://purl.org/dc/elements/1.1/"),
    ("dcat", "http://www.w3.org/ns/dcat#"),
    ("dcterms", "http://purl.org/dc/terms/"),
    ("dqv", "http://www.w3.org/ns/dqv#"),
    ("duv", "https://www.w3.org/ns/duv#"),
    ("earl", "http://www.w3.org/ns/earl#"),
    ("foaf", "http://xmlns.com/foaf/0.1/"),
    ("gr", "http://purl.org/goodrelations/v1#"),
    ("grddl", "http://www.w3.org/2003/g/data-view#"),
    ("ical", "http://www.w3.org/2002/12/cal/icaltzd#"),
    ("jsonld", "http://www.w3.org/ns/json-ld#"),
    ("ldp", "http://www.w3.org/ns/ldp#"),
    ("ma", "http://www.w3.org/ns/ma-ont#"),
    ("oa", "http://www.w3.org/ns/oa#"),
    ("odrl", "http://www.w3.org/ns/odrl/2/"),
    ("og", "http://ogp.me/ns#"),
    ("org", "http://www.w3.org/ns/org#"),
    ("owl", "http://www.w3.org/2002/07/owl#"),
    ("prov", "http://www.w3.org/ns/prov#"),
    ("qb", "http://purl.org/linked-data/cube#"),
    ("rdf", "http://www.w3.org/1999/02/22-rdf-syntax-ns#"),
    ("rdfa", "http://www.w3.org/ns/rdfa#"),
    ("rdfs", "http://www.w3.org/2000/01/rdf-schema#"),
    ("rev", "http://purl.org/stuff/rev#"),
    ("rif", "http://www.w3.org/2007/rif#"),
    ("rr", "http://www.w3.org/ns/r2rml#"),
    ("schema", "http://schema.org/"),
    ("sd", "http://www.w3.org/ns/sparql-service-description#"),
    ("sioc", "http://rdfs.org/sioc/ns#"),
    ("skos", "http://www.w3.org/2004/02/skos/core#"),
    ("skosxl", "http://www.w3.org/2008/05/skos-xl#"),
    ("sosa", "http://www.w3.org/ns/sosa/"),
    ("ssn", "http://www.w3.org/ns/ssn/"),
    ("time", "http://www.w3.org/2006/time#"),
    ("v", "http://rdf.data-vocabulary.org/#"),
    ("vcard", "http://www.w3.org/2006/vcard/ns#"),
    ("void", "http://rdfs.org/ns/void#"),
    ("wdr", "http://www.w3.org/2007/05/powder#"),
    ("wdrs", "http://www.w3.org/2007/05/powder-s#"),
    ("xhv", "http://www.w3.org/1999/xhtml/vocab#"),
    ("xml", "http://www.w3.org/XML/1998/namespace"),
    ("xsd", "http://www.w3.org/2001/XMLSchema#")
  ]

/- The terms that every document starts with. -/
def initialTerms : Entries :=
  [
    ("describedby", "http://www.w3.org/2007/05/powder-s#describedby"),
    ("license", "http://www.w3.org/1999/xhtml/vocab#license"),
    ("role", "http://www.w3.org/1999/xhtml/vocab#role")
  ]

end Prefixes
end LinkedMarkup
