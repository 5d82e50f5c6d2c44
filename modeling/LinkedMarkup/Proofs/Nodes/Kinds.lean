import LinkedMarkup.Proofs.Nodes.Minting
import LinkedMarkup.Proofs.Work.Secures

/-
  This file proves which nodes an event makes: a start tag
  makes new ones and those of labels, an end tag makes the
  links of the lists that it writes, and nothing else makes
  any. This is also so for an event that ends with a fault.

  Key definitions include:
    * `Event.Mints`
    * `Session.Supplied`

  Main declarations:
    * `Evaluation.completeElement_spares`
    * `Evaluation.State.Minted.leads`
-/

namespace LinkedMarkup

/- The nodes that an event may make. -/
inductive Event.Mints : Event → Mint → Prop where
  | fresh
      (name : String)
      (attributes : Entries)
      (depth : Nat)
      (b : BlankNode) :
      Mints (.opened name attributes depth) (.fresh b)
  | label
      (name : String)
      (attributes : Entries)
      (depth : Nat)
      (label : String)
      (b : BlankNode) :
      Mints (.opened name attributes depth) (.label label b)
  | link
      (name : String)
      (depth : Nat)
      (b : BlankNode) :
      Mints (.closed name depth) (.link b)

------------------------------------------------------------
-- Steps that make no nodes
------------------------------------------------------------

/- A session whose supply is a given one. -/
def Session.Supplied
    (supply : NodeSupply)
    (s : Session) : Prop :=
  s.supply = supply

namespace Work

variable {supply : NodeSupply}

theorem spares_note
    (n : Note) :
    Secures (Session.Supplied supply) (note n) (fun _ => True) :=
  fun _ hs => ⟨hs, fun _ _ => trivial⟩

theorem spares_state
    (subject : Option Subject)
    (predicate : Iri)
    (object : Option Object) :
    Secures (Session.Supplied supply) (state subject predicate object)
      (fun _ => True) := by
  unfold state
  split
  · exact spares_note _
  · exact secures_fail _

theorem spares_appendToList
    (list : Nat)
    (predicate : Iri)
    (value : Object) :
    Secures (Session.Supplied supply)
      (appendToList list predicate value) (fun _ => True) := by
  intro s hs
  refine ⟨?_, fun _ _ => trivial⟩
  unfold appendToList
  cases s.lists.append list predicate value with
  | error fault => exact hs
  | ok lists => exact hs

/- The supply after a step whose first part alone may change it. -/
theorem supply_bind_pure
    {α β : Type}
    (w : Work α)
    (f : α → β)
    (s : Session) :
    ((w >>= fun a => pure (f a)) s).2.supply = (w s).2.supply := by
  change (andThen w (fun a => pure (f a)) s).2.supply = _
  unfold andThen
  cases w s with
  | mk outcome t => cases outcome <;> rfl

end Work

namespace Evaluation

open Work Coupling

variable {supply : NodeSupply}

theorem plainLiteral_spares
    (value : String)
    (language : Option String) :
    Secures (Session.Supplied supply) (plainLiteral value language)
      (fun _ => True) := by
  unfold plainLiteral
  split
  · exact secures_pure trivial
  · refine (spares_note _).bind ?_
    intro _ _
    exact secures_ofOutcome (fun _ _ => trivial)

theorem capturedLiteral_spares
    (p : Pending) :
    Secures (Session.Supplied supply) (capturedLiteral p)
      (fun _ => True) := by
  have hTyped :
      ∀ value datatype,
        Secures (Session.Supplied supply)
          (typedLiteral value datatype) (fun _ => True) :=
    fun _ _ => secures_ofOutcome (fun _ _ => trivial)
  unfold capturedLiteral
  split
  · exact hTyped _ _
  · unfold contentLiteral
    split
    · exact hTyped _ _
    · exact plainLiteral_spares _ _

/- Completing an element makes no nodes. -/
theorem completeElement_spares
    (e : Element)
    (s : Session) :
    (completeElement e s).2.supply = s.supply := by
  have hStates :
      ∀ p : Pending, ∀ l : Literal,
        Secures (Session.Supplied s.supply)
          (stateValue p.subject p.list p.inList (.literal l)
            p.predicates)
          (fun _ => True) := by
    intro p l
    apply secures_forEach
    intro predicate _
    unfold stateOrList
    split
    · exact spares_appendToList _ _ _
    · exact spares_state _ _ _
  have hComplete :
      Secures (Session.Supplied s.supply) (completeElement e)
        (fun _ => True) := by
    unfold completeElement
    split
    · rename_i p _
      exact (capturedLiteral_spares p).bind (fun l _ => hStates p l)
    · exact secures_pure trivial
  exact (hComplete s rfl).1

/- Closing an element only makes the links of its lists. -/
theorem closeElement_leads
    {P : Mint → Prop}
    (hLinks : ∀ b, P (.link b))
    (e : Element)
    (s : Session) :
    NodeSupply.Leads P s.supply (closeElement e s).2.supply := by
  have hSpares := completeElement_spares e s
  cases hComplete : completeElement e s with
  | mk outcome m =>
      rw [hComplete] at hSpares
      rw [← hSpares]
      cases outcome with
      | error fault =>
          rw [closeElement_of_error hComplete]
          exact .refl _
      | ok _ =>
          rw [closeElement_of_ok hComplete]
          exact flushLists_leads hLinks e.list e.subject m

------------------------------------------------------------
-- Events
------------------------------------------------------------

/- A start tag makes no links, since it writes no list. -/
theorem State.Minted.openElement_leads
    {d : State}
    (h : d.Minted)
    (name : String)
    (attributes : Entries)
    (depth : Nat) :
    NodeSupply.Leads (Event.opened name attributes depth).Mints
      d.session.supply
      (openElement d.settings d.scope d.elements.isEmpty name
        attributes d.fresh).2.supply := by
  have hScope :
      (minting (Event.opened name attributes depth).Mints).ScopesMatch
        d.session.supply d.scope d.scope :=
    ScopesMatch.transfer (C := minting (fun _ => True))
      (D := minting (Event.opened name attributes depth).Mints)
      (fun _ _ hNode => hNode) (fun _ _ hList => hList) h.scope
  have hBoth :=
    openElement_coupled
      (minting_sound (.fresh name attributes depth)
        (.label name attributes depth))
      minting_fills (.refl d.settings) (minting_makes _) hScope
      d.elements.isEmpty (.inl ⟨trivial, trivial⟩) name attributes
  rcases hBoth.sessions h.session with ⟨V, hLeads, _, hSupply, _⟩
  rw [hSupply]
  exact hLeads

/- An event makes nodes of its own kinds, however it ends. -/
theorem State.Minted.leads
    {d : State}
    (h : d.Minted)
    (event : Event) :
    NodeSupply.Leads event.Mints d.session.supply
      (Evaluation.readEvent d event d.fresh).2.supply := by
  unfold Evaluation.readEvent
  cases event with
  | opened name attributes depth =>
      dsimp only
      rw [supply_bind_pure]
      exact h.openElement_leads name attributes depth
  | text data => exact .refl _
  | unknown description => exact .refl _
  | closed name depth =>
      dsimp only
      cases d.elements with
      | nil => exact .refl _
      | cons e rest =>
          by_cases hName : (e.name == name) = true
          · simp only [if_pos hName]
            rw [supply_bind_pure]
            exact closeElement_leads (.link name depth) e d.fresh
          · simp only [if_neg hName]
            exact .refl _

end Evaluation
end LinkedMarkup
