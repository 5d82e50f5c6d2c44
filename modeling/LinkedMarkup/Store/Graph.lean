import LinkedMarkup.Statement.Namespace
import LinkedMarkup.Store.Canonical
import LinkedMarkup.Text.Entries

/-
  This file defines graphs: sets of statements with canonical
  literals, together with short names for namespaces, and the
  patterns by which statements are looked up.

  Key definitions include:
    * `Graph`
    * `Graph.empty`
    * `Graph.add`
    * `Pattern`
    * `Pattern.accepts`
    * `Graph.select`
    * `Graph.contains`
    * `Graph.objects`
    * `Graph.lines`
-/

namespace LinkedMarkup

------------------------------------------------------------
-- Graphs
------------------------------------------------------------

/- Statements, each once, the one added last in front. -/
structure Graph where
  namespaces : Entries
  quads : List Quad
  distinct : quads.Nodup

namespace Graph

/- A graph without statements. -/
def empty
    (namespaces : Entries) : Graph :=
  ⟨namespaces, [], List.nodup_nil⟩

/- A graph without statements that knows the usual names. -/
def standard : Graph :=
  empty Vocabulary.known

/- The number of statements. -/
def size
    (g : Graph) : Nat :=
  g.quads.length

/- Whether a graph has no statements. -/
def isEmpty
    (g : Graph) : Bool :=
  g.quads.isEmpty

/- Add a statement in canonical form, unless it is there. -/
def add
    (g : Graph)
    (q : Quad) : Graph :=
  if h : q.canonical ∈ g.quads then
    g
  else
    { g with
      quads := q.canonical :: g.quads
      distinct := List.nodup_cons.2 ⟨h, g.distinct⟩ }

/- The lines of the statements, sorted. -/
def lines
    (g : Graph) : List String :=
  (g.quads.map Quad.tripleLine).mergeSort

end Graph

/-
  The statement that loose terms make. A position that holds
  nothing or the wrong kind of term is a mistake of type.
-/
def Quad.ofTerms
    (subject predicate object : Option Term) : Except Fault Quad :=
  match subject.bind Subject.ofTerm?, predicate.bind Term.iri?,
      object.bind Object.ofTerm? with
  | some s, some p, some o => .ok (Quad.triple s p o)
  | _, _, _ => .error .mistypedTerm

------------------------------------------------------------
-- Patterns
------------------------------------------------------------

/- What to look for: a value in a position, or anything. -/
structure Pattern where
  subject : Option Subject
  predicate : Option Iri
  object : Option Object
  deriving DecidableEq, Repr

namespace Pattern

/- The value that a loose term gives for a position. -/
def position
    {α : Type}
    (read : Term → Option α)
    (term : Option Term) : Except Fault (Option α) :=
  match term with
  | none => .ok none
  | some t =>
      match read t with
      | some value => .ok (some value)
      | none => .error .mistypedTerm

/- The pattern of loose terms, nothing standing for anything. -/
def ofTerms
    (subject predicate object : Option Term) :
    Except Fault Pattern := do
  let s ← position Subject.ofTerm? subject
  let p ← position Term.iri? predicate
  let o ← position Object.ofTerm? object
  return ⟨s, p, o⟩

/- Whether a pattern accepts a statement. -/
def accepts
    (p : Pattern)
    (q : Quad) : Bool :=
  p.subject.all (· == q.subject) &&
    p.predicate.all (· == q.predicate) &&
    p.object.all (fun o => o.canonical == q.object)

end Pattern

namespace Graph

/- The statements that a pattern accepts. -/
def select
    (g : Graph)
    (p : Pattern) : List Quad :=
  g.quads.filter p.accepts

/- Whether a pattern accepts any statement. -/
def contains
    (g : Graph)
    (p : Pattern) : Bool :=
  g.quads.any p.accepts

/- The objects of statements, as text, sorted. -/
def objects
    (g : Graph)
    (p : Pattern) : List String :=
  ((g.select p).map (fun q => q.object.toTerm.written)).mergeSort

end Graph
end LinkedMarkup
