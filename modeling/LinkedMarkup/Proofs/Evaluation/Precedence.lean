import LinkedMarkup.Proofs.Evaluation.Interruption
import LinkedMarkup.Proofs.Evaluation.Languages
import LinkedMarkup.Proofs.Evaluation.Siblings
import LinkedMarkup.Proofs.Evaluation.Subjects
import LinkedMarkup.Proofs.Evaluation.Unbased

/-
  This file proves which subject any start tag without
  relations gives its element, whatever came before it. It is
  the first node that the tag names, and only without one a
  default, unless a default displaces a node that is named.

  Key definitions include:
    * `Evaluation.State.standIn?`
    * `Evaluation.State.Takes`

  Main declarations:
    * `Evaluation.refused_of_unrelated`
    * `Evaluation.subject_first_unless_displaced`
-/

namespace LinkedMarkup
namespace Evaluation

open Work

------------------------------------------------------------
-- Subjects in a run
------------------------------------------------------------

namespace State

/-
  What stands in for the `about` of a start tag: the document
  at the root, and in HTML the node around a typed head or
  body.
-/
def standIn?
    (d : State)
    (x : Environment)
    (name : String)
    (attributes : Entries) : Option Subject :=
  Evaluation.standIn? d.settings d.scope x d.elements.isEmpty name
    attributes

/-
  What the element of a start tag may have as its subject if
  a node, or none, is chosen for it.
-/
def Takes
    (d m : State)
    (attributes : Entries)
    (chosen subject : Option Subject) : Prop :=
  Evaluation.Takes d.session.supply m.session.supply d.scope.object
    (attributes.has "typeof") chosen subject

end State

/- A start tag without relations fails only if it is refused. -/
theorem refused_of_unrelated
    {d : State}
    (hSteady : Steady d)
    {name : String}
    {attributes : Entries}
    {depth : Nat}
    {fault : Fault}
    {notes : List Note}
    (hRel : ¬ InEffect d.settings attributes "rel")
    (hRev : ¬ InEffect d.settings attributes "rev")
    (h :
      process d (.opened name attributes depth) = (.error fault, notes)) :
    fault.IsValue ∧
      RefusesTag d.settings d.scope.environment d.elements.isEmpty
        attributes := by
  have hValue : fault.IsValue := by
    rcases process_error_cases h with
      ⟨_, _, _, t, hEvent, hOpen⟩ | ⟨_, _, _, _, _, hEvent, _⟩ |
        ⟨_, _, hEvent, _⟩ | ⟨_, hEvent⟩
    · cases hEvent
      rcases fault_of_openElement hSteady hOpen with
        hKind | ⟨tag, m, _, hRead, _, hAdrift⟩
      · exact hKind
      · rcases readTag_unrelated hRel hRev _ _ _ _ tag m hRead with
          ⟨hNoRel, hNoRev⟩
        rcases hAdrift.relation with ⟨hForward, _⟩ | hReverse
        · exact absurd hNoRel hForward
        · exact absurd hNoRev hReverse
    · cases hEvent
    · cases hEvent
    · cases hEvent
  refine ⟨hValue, ?_⟩
  rcases (process_value_error_iff d _).mp ⟨fault, notes, h, hValue⟩ with
    ⟨_, _, _, hEvent, hRefuses⟩
  cases hEvent
  exact hRefuses

/-
  Whatever came before, a start tag without relations whose
  property stands apart is refused for a value, or it takes
  the first node that `about`, `resource`, `href` or `src`
  names, then what stands in for `about`, then a new node or
  what is around, unless a node is displaced; in any case its
  types are noted of what it takes.
-/
theorem subject_first_unless_displaced
    {settings : Settings}
    {base : String}
    {first d : State}
    {events : List Event}
    {sections : List (List Note)}
    {attributes : Entries}
    (hStart : start settings base = .ok first)
    (hRun : Run first events sections d)
    (hRel : ¬ InEffect settings attributes "rel")
    (hRev : ¬ InEffect settings attributes "rev")
    (hApart : StandsApart settings attributes)
    (name : String)
    (depth : Nat) :
    (∃ fault notes,
      process d (.opened name attributes depth) =
          (.error fault, notes) ∧
        fault.IsValue ∧
        RefusesTag settings d.scope.environment d.elements.isEmpty
          attributes) ∨
    ∃ m notes x e rest,
      process d (.opened name attributes depth) = (.ok m, notes) ∧
        Environment.declare settings.media attributes
          d.scope.environment = .ok x ∧
        m.elements = e :: rest ∧
        d.Takes m attributes
          ((x.given m.session.supply attributes).completed
            (d.standIn? x name attributes)).first
          e.subject ∧
        (d.Takes m attributes
            ((x.given m.session.supply attributes).first.or
              (d.standIn? x name attributes))
            e.subject ↔
          ¬ Displaced (x.given m.session.supply attributes)
              (d.standIn? x name attributes)) ∧
        TypesNoted x attributes e.subject notes := by
  have hSettings : d.settings = settings := by
    rcases start_eq_ok hStart with ⟨_, _, _, _, rfl⟩
    exact settings_of_run hRun
  subst hSettings
  cases hStep : process d (.opened name attributes depth) with
  | mk outcome notes =>
      cases outcome with
      | error fault =>
          have hRefused :=
            refused_of_unrelated (steady_of_run hStart hRun) hRel hRev
              hStep
          exact .inl ⟨fault, notes, rfl, hRefused⟩
      | ok m =>
          have hBounded : d.fresh.supply.Bounded :=
            (sound_of_run hStart hRun).named
          rcases process_startTag hStep with
            ⟨tag, s, t, _, _, _, hRead, hBuild, rfl, rfl⟩
          have hDeclares := readTag_declares _ _ _ _ _ _ _ _ hRead
          rcases readTag_takes hRel hRev hApart _ _ _ hBounded _ _
              hRead with
            ⟨_, hTakes, hTyped⟩
          have hAfter := buildElement_advances _ _ _ _ _ _ _ _ hBuild
          have hSubject := buildElement_subject _ _ _ _ _ _ _ _ hBuild
          have hHere := hTakes t.supply hAfter.supply
          rw [← hSubject] at hHere hTyped
          exact .inr
            ⟨_, _, tag.reading.scope.environment, tag.element, _, rfl,
              hDeclares, rfl, hHere, takes_first_iff hHere,
              hTyped.mono hAfter.notes⟩

namespace Displacement

def settings : Settings :=
  ⟨.html, ⟨.members, true, [("f", "http://f/")], []⟩⟩

def first : State :=
  State.initial settings "http://ex/" ⟨"http://ex/"⟩

theorem start_eq :
    start settings "http://ex/" = .ok first :=
  start_of_document (by decide +kernel) (by decide +kernel) settings

/- A start tag that types what it names. -/
def attributes : Entries :=
  [("resource", "#x"), ("typeof", "f:Page")]

theorem unrelated :
    ¬ InEffect settings attributes "rel" ∧
      ¬ InEffect settings attributes "rev" ∧
      StandsApart settings attributes := by
  rw [← relationTokens_eq_none_iff, ← relationTokens_eq_none_iff]
  unfold StandsApart
  decide

/- The evaluation inside the root. -/
def page : State :=
  first.through [.opened "html" [] 0]

theorem run_page :
    ∃ sections, Run first [.opened "html" [] 0] sections page :=
  ⟨_, run_through (by decide +kernel)⟩

def document : Subject :=
  .iri ⟨"http://ex/"⟩

def named : Subject :=
  .iri ⟨"http://ex/#x"⟩

/- What is in force at the root and inside it. -/
def inside : Environment :=
  ⟨"http://ex/", none, none, [("f", "http://f/")], []⟩

theorem declare_inside :
    Environment.declare settings.media attributes
          first.scope.environment = .ok inside ∧
      Environment.declare settings.media attributes
          page.scope.environment = .ok inside :=
  ⟨rfl, rfl⟩

theorem standIn?_eq :
    first.standIn? inside "html" attributes = some document ∧
      page.standIn? inside "body" attributes = some document := by
  decide +kernel

theorem process_root :
    (process first (.opened "html" attributes 0)).1.isOk = true ∧
      (first.through [.opened "html" attributes 0]).elements.map
          (·.subject) = [some document] := by
  decide +kernel

theorem process_body :
    (process page (.opened "body" attributes 1)).1.isOk = true := by
  decide +kernel

end Displacement

open Displacement in
/- A body that is typed and names a resource is the document. -/
theorem body_takes_document :
    ∃ m notes e rest,
      process page (.opened "body" attributes 1) = (.ok m, notes) ∧
        m.elements = e :: rest ∧
        e.subject = some document ∧
        (inside.given m.session.supply attributes).first =
          some named ∧
        ¬ page.Takes m attributes
            ((inside.given m.session.supply attributes).first.or
              (page.standIn? inside "body" attributes))
            e.subject ∧
        typeNotes document [⟨"http://f/Page"⟩] <:+: notes := by
  rcases run_page with ⟨_, hRun⟩
  rcases unrelated with ⟨hRel, hRev, hApart⟩
  rcases subject_first_unless_displaced start_eq hRun hRel hRev hApart
      "body" 1 with
    ⟨_, _, hStep, _⟩ |
      ⟨m, notes, x, e, rest, hStep, hDeclare, hElements, hTakes, hFirst,
        hTyped⟩
  · have hOk := process_body
    rw [hStep] at hOk
    cases hOk
  · cases declare_inside.2.symm.trans hDeclare
    rw [standIn?_eq.2] at hTakes hFirst ⊢
    have hSubject : e.subject = some document :=
      takes_some_iff.mp hTakes
    have hDisplaced :
        Displaced (inside.given m.session.supply attributes)
          (some document) :=
      ⟨rfl, document, named, rfl, rfl, by decide⟩
    rcases hTyped rfl with ⟨node, hNode, hNotes⟩
    cases hSubject.symm.trans hNode
    exact
      ⟨m, notes, e, rest, hStep, hElements, hSubject, rfl,
        fun hTaken => hFirst.mp hTaken hDisplaced, hNotes⟩

open Displacement in
/- So not every start tag takes the first node that it names. -/
theorem not_subjectsFirst :
    ¬ ∀ (settings : Settings) (base : String) (first d m : State)
        (events : List Event) (sections : List (List Note))
        (name : String) (attributes : Entries) (depth : Nat)
        (notes : List Note),
      start settings base = .ok first →
        Run first events sections d →
          ¬ InEffect settings attributes "rel" →
            ¬ InEffect settings attributes "rev" →
              StandsApart settings attributes →
                process d (.opened name attributes depth) =
                    (.ok m, notes) →
                  ∃ x e rest,
                    Environment.declare settings.media attributes
                        d.scope.environment = .ok x ∧
                      m.elements = e :: rest ∧
                      d.Takes m attributes
                        ((x.given m.session.supply attributes).first.or
                          (d.standIn? x name attributes))
                        e.subject := by
  intro hFirst
  rcases unrelated with ⟨hRel, hRev, hApart⟩
  rcases exists_ok_of_isOk process_root.1 with ⟨m, hStep⟩
  rcases hFirst settings "http://ex/" first first m [] [] "html"
      attributes 0 _ start_eq (.nil first) hRel hRev hApart hStep with
    ⟨x, e, rest, hDeclare, hElements, hTakes⟩
  cases declare_inside.1.symm.trans hDeclare
  have hSubject : e.subject = some named := takes_some_iff.mp hTakes
  have hOpened : first.through [.opened "html" attributes 0] = m :=
    (Run.cons hStep (.nil m)).through_eq
  have hDocument := process_root.2
  rw [hOpened, hElements, List.map_cons, hSubject] at hDocument
  have hSame := (List.cons.inj hDocument).1
  revert hSame
  decide

end Evaluation
end LinkedMarkup
