/-
  This file defines what can go wrong anywhere in the
  library: one constructor for each cause, the kind a cause
  belongs to, and its message.

  Key definitions include:
    * `Fault.Kind`
    * `Fault`
    * `Fault.kind`
    * `Fault.message?`
    * `Fault.text`
    * `Fault.isAdvisory`
    * `Fault.toIssue`
-/

namespace LinkedMarkup

------------------------------------------------------------
-- Kinds
------------------------------------------------------------

/- The kinds of faults that callers tell apart. -/
inductive Fault.Kind where
  | issue
  | advisory
  | markup
  | invariant
  | cancelled
  | extraction
  | value
  | type
  | member
  | lookup
  | run
  | system
  | decoding
  deriving DecidableEq, Repr

namespace Fault.Kind

/- The name of a kind, which stands in for a missing message. -/
def name :
    Fault.Kind → String
  | issue => "Issue"
  | advisory => "AdvisoryIssue"
  | markup => "MarkupError"
  | invariant => "InvariantViolation"
  | cancelled => "ParseCancelled"
  | extraction => "RdfaParseException"
  | value => "ValueError"
  | type => "TypeError"
  | member => "AttributeError"
  | lookup => "KeyError"
  | run => "RuntimeError"
  | system => "OSError"
  | decoding => "UnicodeDecodeError"

/- Every kind. -/
def all : List Fault.Kind :=
  [issue, advisory, markup, invariant, cancelled, extraction,
    value, type, member, lookup, run, system, decoding]

/- The kind that a name stands for. -/
def ofName?
    (s : String) : Option Fault.Kind :=
  all.find? (fun k => k.name == s)

/-
  Whether a kind is one of the library's own. The others are
  turned into a plain issue before a caller sees them.
-/
def isIssue :
    Fault.Kind → Bool
  | issue => true
  | advisory => true
  | markup => true
  | invariant => true
  | cancelled => true
  | extraction => true
  | _ => false

end Fault.Kind

------------------------------------------------------------
-- Causes
------------------------------------------------------------

/- A cause of failure, with what its message mentions. -/
inductive Fault where
  -- Terms that the data model rejects.
  | invalidIri (iri : String)
  | invalidLiteral (value : String)
  | rejectedTerm
  | mistypedTerm
  -- Statements and lists built wrongly.
  | literalConflict (value : String)
  | notATerm (found : String)
  | badSubject (found : String)
  | badPredicate (found : String)
  | badObject (found : String)
  | badGraph (found : String)
  | listFlushed (predicate : String)
  | listWithoutSubject
  | missingMember (owner name : String)
  -- Events out of order.
  | unexpectedEvent (event : String)
  | unexpectedEnd (name : String)
  | mismatchedEnd (opened closed : String)
  | unclosed (count : Nat)
  -- Input that cannot be read.
  | unsupportedMedia (media : String)
  | emptyDocument
  | malformedDocument (media : String)
  | attributeName
  | codePointRange
  -- References and options.
  | invalidAddress
  | futureHost
  | dottedHost
  | unknownHost (host : String)
  | unsafeHost (host : String)
  | invalidBase (iri : String)
  | unknownListStyle (style : String)
  | hiddenName (name : String)
  | missingKey (name : String)
  -- Delivery.
  | markupType (type : String)
  | baseType (type : String)
  | cancelled (reason : String)
  | extractionFailed (reason : String)
  | malformedQuery (query : String)
  -- Files.
  | missingSource (path : String)
  | fileFault (number : Nat) (reason path : String)
  | undecodable
  -- Raised by a caller.
  | raised (kind : Fault.Kind) (message : String)
  deriving DecidableEq, Repr

namespace Fault

/- The kind of a cause. -/
def kind :
    Fault → Fault.Kind
  | invalidIri _ => .advisory
  | invalidLiteral _ => .advisory
  | rejectedTerm => .value
  | mistypedTerm => .type
  | literalConflict _ => .invariant
  | notATerm _ => .invariant
  | badSubject _ => .invariant
  | badPredicate _ => .invariant
  | badObject _ => .invariant
  | badGraph _ => .invariant
  | listFlushed _ => .invariant
  | listWithoutSubject => .invariant
  | missingMember _ _ => .member
  | unexpectedEvent _ => .invariant
  | unexpectedEnd _ => .invariant
  | mismatchedEnd _ _ => .invariant
  | unclosed _ => .invariant
  | unsupportedMedia _ => .markup
  | emptyDocument => .markup
  | malformedDocument _ => .markup
  | attributeName => .value
  | codePointRange => .value
  | invalidAddress => .value
  | futureHost => .value
  | dottedHost => .value
  | unknownHost _ => .value
  | unsafeHost _ => .value
  | invalidBase _ => .issue
  | unknownListStyle _ => .issue
  | hiddenName _ => .member
  | missingKey _ => .lookup
  | markupType _ => .issue
  | baseType _ => .issue
  | cancelled _ => .cancelled
  | extractionFailed _ => .extraction
  | malformedQuery _ => .issue
  | missingSource _ => .system
  | fileFault _ _ _ => .system
  | undecodable => .decoding
  | raised k _ => k

/-
  The message of a cause. Rejected terms and undecodable
  bytes have no message of their own.
-/
def message? :
    Fault → Option String
  | invalidIri iri => some ("Invalid IRI <" ++ iri ++ ">:")
  | invalidLiteral value =>
      some ("Invalid literal \"" ++ value ++ "\":")
  | rejectedTerm => none
  | mistypedTerm => none
  | literalConflict value =>
      some ("Literal \"" ++ value ++
        "\" cannot have both a language and a datatype")
  | notATerm found => some ("Not an RDF term: " ++ found)
  | badSubject found =>
      some ("Subject must be an IRI or blank node, not " ++ found)
  | badPredicate found =>
      some ("Predicate must be an IRI, not " ++ found)
  | badObject found =>
      some ("Object must be an IRI, blank node or literal, not " ++ found)
  | badGraph found =>
      some ("Graph must be an IRI or the default graph, not " ++ found)
  | listFlushed predicate =>
      some ("List for <" ++ predicate ++ "> used after it was flushed")
  | listWithoutSubject => some "Lists have no subject to attach to"
  | missingMember owner name =>
      some ("'" ++ owner ++ "' object has no attribute '" ++ name ++ "'")
  | unexpectedEvent event =>
      some ("Unexpected markup event: " ++ event)
  | unexpectedEnd name =>
      some ("Unexpected end of element: " ++ name)
  | mismatchedEnd opened closed =>
      some ("Element " ++ opened ++ " closed by " ++ closed)
  | unclosed count =>
      some ("Document ended with " ++ toString count ++ " open elements")
  | unsupportedMedia media =>
      some ("Unsupported content type: " ++ media)
  | emptyDocument => some "Document is empty"
  | malformedDocument media =>
      some ("Cannot parse " ++ media ++ " document:")
  | attributeName =>
      some "not enough values to unpack (expected 2, got 1)"
  | codePointRange => some "chr() arg not in range(0x110000)"
  | invalidAddress => some "Invalid IPv6 URL"
  | futureHost => some "IPvFuture address is invalid"
  | dottedHost => some "An IPv4 address cannot be in brackets"
  | unknownHost host =>
      some (host ++ " does not appear to be an IPv4 or IPv6 address")
  | unsafeHost host =>
      some ("netloc '" ++ host ++
        "' contains invalid characters under NFKC normalization")
  | invalidBase iri => some ("Invalid base IRI <" ++ iri ++ ">:")
  | unknownListStyle style => some ("Unknown list style: " ++ style)
  | hiddenName name => some name
  | missingKey name => some ("'" ++ name ++ "'")
  | markupType type => some ("Markup must be text, not " ++ type)
  | baseType type => some ("Base IRI must be text, not " ++ type)
  | cancelled reason => some reason
  | extractionFailed reason =>
      some ("Failed to parse RDFa: " ++ reason)
  | malformedQuery query => some query
  | missingSource path =>
      some ("Missing RDFa source file: " ++ path)
  | fileFault number reason path =>
      some ("[Errno " ++ toString number ++ "] " ++ reason ++ ": " ++ path)
  | undecodable => none
  | raised _ message => some message

/- The message of a cause, empty if it has none. -/
def text
    (f : Fault) : String :=
  f.message?.getD ""

/- Whether a cause is a remark that never stops a caller. -/
def isAdvisory
    (f : Fault) : Bool :=
  f.kind == .advisory

/-
  A cause as an issue: one of the library's own kinds is
  kept, any other becomes a plain issue with its message, or
  with the name of its kind if it has none.
-/
def toIssue
    (f : Fault) : Fault :=
  if f.kind.isIssue then
    f
  else if f.text.isEmpty then
    .raised .issue f.kind.name
  else
    .raised .issue f.text

end Fault
end LinkedMarkup
