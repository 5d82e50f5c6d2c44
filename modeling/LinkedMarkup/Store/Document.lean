import LinkedMarkup.Store.Graph

/-
  This file defines documents: graphs as text, in one of
  three formats.

  Key definitions include:
    * `Graph.Format`
    * `Graph.Document`
    * `Graph.Document.nameLines`
    * `Graph.Document.lines`
    * `Graph.Document.text`
    * `Graph.document`
-/

namespace LinkedMarkup

------------------------------------------------------------
-- Formats
------------------------------------------------------------

/- The formats of documents. -/
inductive Graph.Format where
  | turtle
  | ntriples
  | rdfxml
  deriving DecidableEq, Repr

namespace Graph.Format

/- The name of a format. -/
def name :
    Graph.Format → String
  | turtle => "turtle"
  | ntriples => "ntriples"
  | rdfxml => "rdfxml"

/- The format of a name. -/
def ofName?
    (s : String) : Option Graph.Format :=
  [turtle, ntriples, rdfxml].find? (fun f => f.name == s)

/- The format that the suffix of a file's name asks for. -/
def ofSuffix
    (suffix : String) : Graph.Format :=
  if suffix == ".nt" then
    ntriples
  else if suffix == ".rdf" then
    rdfxml
  else
    turtle

end Graph.Format

/- A graph that is to be written in a format. -/
structure Graph.Document where
  format : Graph.Format
  graph : Graph

namespace Graph.Document

------------------------------------------------------------
-- Lines
------------------------------------------------------------

/- The lines that declare namespaces, sorted. -/
def nameLines
    (d : Graph.Document) : List String :=
  (d.graph.namespaces.map (fun entry =>
    "@prefix " ++ entry.1 ++ ": <" ++ entry.2 ++ "> .")).mergeSort

/- The lines of a document that is made of lines. -/
def lines
    (d : Graph.Document) : List String :=
  if d.graph.isEmpty then
    []
  else if d.format == .turtle then
    d.nameLines ++ d.graph.lines
  else
    d.graph.lines

------------------------------------------------------------
-- Elements
------------------------------------------------------------

/- A text with the characters escaped that delimit elements. -/
def escaped
    (s : String) : String :=
  String.join (s.toList.map (fun c =>
    if c == '&' then "&amp;"
    else if c == '<' then "&lt;"
    else if c == '>' then "&gt;"
    else if c == '"' then "&quot;"
    else if c == '\r' then "&#13;"
    else String.singleton c))

/- A name and a value as they stand in a tag. -/
def field
    (name value : String) : String :=
  " " ++ name ++ "=\"" ++ escaped value ++ "\""

/- Whether the name of an element may hold a character. -/
def isNameChar
    (c : Char) : Bool :=
  BlankNode.isLabelChar c

/-
  The namespace and the name that an IRI is cut into: the
  name is as long as it can be.
-/
def cutIri
    (iri : Iri) : String × String :=
  let tail := (iri.text.toList.reverse.takeWhile isNameChar).reverse
  let name := tail.dropWhile (fun c =>
    !(Text.isLetter c || c == '_'))
  (String.ofList (iri.text.toList.take
    (iri.text.toList.length - name.length)), String.ofList name)

/- The name of a predicate's element, and its declaration. -/
def elementName
    (iri : Iri) : String × String :=
  let (base, name) := cutIri iri
  if name.isEmpty then
    ("p:", field "xmlns:p" base)
  else
    (name, field "xmlns" base)

/- The element of a predicate and an object. -/
def relation
    (predicate : Iri)
    (object : Object) : String :=
  let (name, declared) := elementName predicate
  let opened := "<" ++ name ++ declared
  let around := fun (fields text : String) =>
    opened ++ fields ++ ">" ++ escaped text ++ "</" ++ name ++ ">"
  match object with
  | .iri i => opened ++ field "rdf:resource" i.text ++ "/>"
  | .blank b => opened ++ field "rdf:nodeID" b.label ++ "/>"
  | .literal (.tagged v l) => around (field "xml:lang" l) v
  | .literal (.typed v d) =>
      if d == Xsd.string then
        around "" v
      else
        around (field "rdf:datatype" d.text) v

/- The element of a statement. -/
def description
    (q : Quad) : String :=
  let about :=
    match q.subject with
    | .iri i => field "rdf:about" i.text
    | .blank b => field "rdf:nodeID" b.label
  "<rdf:Description" ++ about ++ ">" ++
    relation q.predicate q.object ++ "</rdf:Description>"

/- The lines of a document that is made of elements. -/
def elements
    (d : Graph.Document) : List String :=
  ["<?xml version=\"1.0\" encoding=\"UTF-8\"?>",
    "<rdf:RDF" ++ field "xmlns:rdf" Rdf.base ++ ">"] ++
    (d.graph.quads.map description).mergeSort ++ ["</rdf:RDF>"]

------------------------------------------------------------
-- Text
------------------------------------------------------------

/- The text of a document. -/
def text
    (d : Graph.Document) : String :=
  let parts := if d.format == .rdfxml then d.elements else d.lines
  String.join (parts.map (· ++ "\n"))

end Graph.Document

/-
  The document of a graph in a format. Formats that declare
  namespaces need them to be IRIs.
-/
def Graph.document
    (g : Graph)
    (format : Graph.Format) : Except Fault Graph.Document :=
  if format == .ntriples ||
      g.namespaces.all (fun entry => (Iri.parse? entry.2).isSome) then
    .ok ⟨format, g⟩
  else
    .error .rejectedTerm

end LinkedMarkup
