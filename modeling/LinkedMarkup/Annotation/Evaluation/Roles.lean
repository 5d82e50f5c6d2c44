import LinkedMarkup.Annotation.Evaluation.Inheritance

/-
  This file defines the nodes that an element's attributes
  name, and the parts that these nodes play: subject, object,
  and the node that is typed.

  Key definitions include:
    * `Evaluation.relationTokens`
    * `Evaluation.explicitContent`
    * `Evaluation.Named`
    * `Evaluation.readAbout`
    * `Evaluation.readNamed`
    * `Evaluation.Roles`
    * `Evaluation.roles`
-/

namespace LinkedMarkup
namespace Evaluation

/- The tokens of a value that hold a colon. -/
def colonTokens
    (value : String) : List String :=
  (Text.words value).filter (fun token => token.toList.contains ':')

/-
  The tokens of `rel` or `rev`, nothing if it is not in
  effect. Beside `property`, HTML only counts tokens with a
  colon, and no attribute without any.
-/
def relationTokens
    (settings : Settings)
    (attributes : Entries)
    (key : String) : Option (List String) :=
  match attributes.get? key with
  | none => none
  | some value =>
      if settings.isHtml && attributes.has "property" then
        match colonTokens value with
        | [] => none
        | tokens => some tokens
      else
        some (Text.words value)

/-
  The explicit content of an element, and whether it comes
  from `datetime`, which only HTML has.
-/
def explicitContent
    (settings : Settings)
    (attributes : Entries) : Option String × Bool :=
  match attributes.get? "content" with
  | some value => (some value, false)
  | none =>
      if settings.isHtml then
        match attributes.get? "datetime" with
        | some value => (some value, true)
        | none => (none, false)
      else
        (none, false)

/- What an optional attribute names as a resource. -/
def namedResource
    (scope : Scope)
    (attributes : Entries)
    (key : String) : Work (Option Subject) :=
  match attributes.get? key with
  | none => return none
  | some value => Resolution.resource scope value

/- What an optional attribute names as an IRI. -/
def namedIri
    (scope : Scope)
    (attributes : Entries)
    (key : String) : Work (Option Subject) :=
  match attributes.get? key with
  | none => return none
  | some value => do
      let found ← Resolution.iri scope value
      return found.map Subject.iri

/- The nodes that an element's attributes name. -/
structure Named where
  about : Option Subject
  resource : Option Subject
  href : Option Subject
  src : Option Subject
  deriving DecidableEq, Repr

/-
  What an element is about. The root is about the document;
  in HTML a typed head or body is about what the element
  around it is about.
-/
def readAbout
    (settings : Settings)
    (parent scope : Scope)
    (isRoot : Bool)
    (name : String)
    (attributes : Entries) : Work (Option Subject) := do
  let given ← namedResource scope attributes "about"
  match given with
  | some s => return some s
  | none =>
      if isRoot then
        Resolution.resource scope ""
      else if settings.isHtml && attributes.has "typeof" &&
          (name == "head" || name == "body") then
        return parent.object
      else
        return none

/- The nodes that an element's attributes name. -/
def readNamed
    (settings : Settings)
    (parent scope : Scope)
    (isRoot : Bool)
    (name : String)
    (attributes : Entries) : Work Named := do
  let about ← readAbout settings parent scope isRoot name attributes
  let resource ← namedResource scope attributes "resource"
  let href ← namedIri scope attributes "href"
  let src ← namedIri scope attributes "src"
  return ⟨about, resource, href, src⟩

/- The node named by `resource`, `href` or `src`. -/
def Named.target
    (n : Named) : Option Subject :=
  (n.resource.or n.href).or n.src

/-
  The parts that nodes play for an element: its subject, the
  object of its relations, the node that is typed, and
  whether the element only passes on what is around it.
-/
structure Roles where
  subject : Option Subject
  object : Option Subject
  typed : Option Subject
  skips : Bool
  deriving DecidableEq, Repr

/- A new blank node as a subject. -/
def freshSubject : Work Subject := do
  let b ← Work.freshNode
  return .blank b

/- A node, or a new one if there is none. -/
def orFresh
    (node : Option Subject) : Work Subject :=
  match node with
  | some s => return s
  | none => freshSubject

/-
  The roles at an element with `property` and without
  relations, content and datatype.
-/
def propertyRoles
    (parent : Scope)
    (named : Named)
    (isTyped : Bool) : Work Roles := do
  let subject := named.about.or parent.object
  if isTyped then
    let typed ← orFresh (named.about.or named.target)
    return ⟨subject, some typed, some typed, false⟩
  else
    return ⟨subject, none, none, false⟩

/- The roles at any other element without relations. -/
def plainRoles
    (parent : Scope)
    (named : Named)
    (isTyped hasProperty : Bool) : Work Roles := do
  match named.about.or named.target with
  | some s =>
      return ⟨some s, none, if isTyped then some s else none, false⟩
  | none =>
      if isTyped then
        let s ← freshSubject
        return ⟨some s, none, some s, false⟩
      else if parent.object.isSome then
        return ⟨parent.object, none, none, !hasProperty⟩
      else
        return ⟨none, none, none, false⟩

/-
  The object of relations: the node that is named, or a new
  one that is typed.
-/
def relationObject
    (named : Named)
    (isTyped : Bool) : Work (Option Subject) :=
  match named.target with
  | some s => return some s
  | none =>
      if isTyped && named.about.isNone then do
        let s ← freshSubject
        return some s
      else
        return none

/- The roles at an element with relations. -/
def relationRoles
    (parent : Scope)
    (named : Named)
    (isTyped : Bool) : Work Roles := do
  let object ← relationObject named isTyped
  let typed :=
    if isTyped then named.about.or object else none
  return ⟨named.about.or parent.object, object, typed, false⟩

/- The roles at an element. -/
def roles
    (parent : Scope)
    (named : Named)
    (hasRelations hasProperty isTyped isBare : Bool) : Work Roles :=
  if hasRelations then
    relationRoles parent named isTyped
  else if hasProperty && isBare then
    propertyRoles parent named isTyped
  else
    plainRoles parent named isTyped hasProperty

end Evaluation
end LinkedMarkup
