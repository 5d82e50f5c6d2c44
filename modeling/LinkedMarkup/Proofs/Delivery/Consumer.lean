import LinkedMarkup.Proofs.Delivery.Streaming

/-
  This file defines consumers, hosts that may fail and may ask
  for the run to be stopped but do nothing else to it, and the
  history of a run: what its consumer was handed, event by
  event. Keeping the history changes nothing about the run.

  Key definitions include:
    * `Reaction`
    * `Consumer`
    * `Consumer.host`
    * `Delivery`
    * `Delivery.contents`
    * `Consumer.watched`
    * `Consumer.history`
    * `Handover.Maps`

  Main declarations:
    * `Handover.run_mapped`
    * `Handover.run_watched`
-/

namespace LinkedMarkup

------------------------------------------------------------
-- Consumers
------------------------------------------------------------

/-
  What a consumer does about records: it may fail, may ask for
  the run to be stopped, with a reason or without, and goes on
  in a state of its own.
-/
structure Reaction (σ : Type) where
  fault? : Option Fault
  stop? : Option (Option String)
  next : σ

/- A consumer of records, which can also look at the signal. -/
def Consumer (σ : Type) : Type :=
  List Record → Signal → σ → Reaction σ

/- A signal once a stop was asked for, if one was. -/
def Signal.asked
    (s : Signal)
    (stop? : Option (Option String)) : Signal :=
  match stop? with
  | none => s
  | some reason => s.abort reason

/- Records that were delivered, and whether a stop was asked for. -/
structure Delivery where
  records : List Record
  stop? : Option (Option String)
  deriving DecidableEq, Repr

namespace Delivery

/- The records of deliveries, event by event. -/
def contents
    (groups : List (List Delivery)) : List (List (List Record)) :=
  groups.map (List.map records)

/- Add a delivery to those of the last event, which come first. -/
def enter
    (groups : List (List Delivery))
    (d : Delivery) : List (List Delivery) :=
  match groups with
  | [] => [[d]]
  | group :: rest => (group ++ [d]) :: rest

theorem foldl_enter_cons
    (deliveries group : List Delivery)
    (rest : List (List Delivery)) :
    deliveries.foldl enter (group :: rest) =
      (group ++ deliveries) :: rest := by
  induction deliveries generalizing group with
  | nil => simp
  | cons d more ih =>
      have hEnter :
          enter (group :: rest) d = (group ++ [d]) :: rest := rfl
      rw [List.foldl_cons, hEnter, ih, List.append_assoc]
      rfl

end Delivery

/- A signal once all that was asked for in deliveries counts. -/
def Signal.through
    (s : Signal)
    (deliveries : List Delivery) : Signal :=
  deliveries.foldl (fun t d => t.asked d.stop?) s

namespace Consumer

variable {σ : Type}

/- The host that a consumer is. It never interrupts a run. -/
def host
    (c : Consumer σ) : Host σ where
  receive records signal far :=
    let reaction := c records signal far
    (reaction.fault?, signal.asked reaction.stop?, reaction.next)
  interrupt far := (none, far)

/-
  The same host with a history of the deliveries, those of the
  last event first. It is asked before each event, when a new
  group begins.
-/
def watched
    (c : Consumer σ) : Host (σ × List (List Delivery)) where
  receive records signal far :=
    let reaction := c records signal far.1
    (reaction.fault?, signal.asked reaction.stop?,
      (reaction.next,
        Delivery.enter far.2 ⟨records, reaction.stop?⟩))
  interrupt far := (none, (far.1, [] :: far.2))

/- What a consumer is handed in a run, event by event. -/
def history
    (c : Consumer σ)
    (signal : Signal)
    (far : σ)
    (r : Request) : List (List Delivery) :=
  (Handover.run c.watched signal (far, []) r).2.far.2.reverse

end Consumer

namespace Handover

variable {σ τ : Type}

------------------------------------------------------------
-- Hosts with a part of the state
------------------------------------------------------------

/- A host that does what another does, on a part of its state. -/
structure Maps
    (f : σ → τ)
    (host : Host σ)
    (host' : Host τ) : Prop where
  receive :
    ∀ records signal far,
      host'.receive records signal (f far) =
        ((host.receive records signal far).1,
          (host.receive records signal far).2.1,
          f (host.receive records signal far).2.2)
  interrupt :
    ∀ far,
      host'.interrupt (f far) =
        ((host.interrupt far).1, f (host.interrupt far).2)

/- A desk with a part of the host's state. -/
def Desk.map
    (f : σ → τ)
    (d : Desk σ) : Desk τ :=
  ⟨d.count, d.signal, f d.far, d.lines, d.waiting, d.draining⟩

section Mapped

variable {f : σ → τ} {host : Host σ} {host' : Host τ}

theorem deliver_mapped
    (h : Maps f host host')
    (d : Desk σ)
    (q : Quad) :
    deliver host' (d.map f) q = (deliver host d q).map f := by
  have hReceive := h.receive q.records d.signal d.far
  rw [deliver_eq, deliver_eq]
  unfold Desk.map
  dsimp only
  rw [hReceive]

theorem deliverAll_mapped
    (h : Maps f host host')
    (waiting : List Quad)
    (d : Desk σ) :
    deliverAll host' waiting (d.map f) =
      (deliverAll host waiting d).map f := by
  induction waiting generalizing d with
  | nil => rfl
  | cons q rest ih =>
      unfold deliverAll
      rw [← ih, ← deliver_mapped h]
      rfl

theorem drain_mapped
    (h : Maps f host host')
    (d : Desk σ) :
    drain host' (d.map f) = (drain host d).map f := by
  have hAll :=
    deliverAll_mapped h d.waiting { d with draining := true }
  by_cases hDraining : d.draining = true
  · have hDraining' : (d.map f).draining = true := hDraining
    unfold drain
    rw [if_pos hDraining, if_pos hDraining']
  · have hDraining' : (d.map f).draining ≠ true := hDraining
    unfold drain
    rw [if_neg hDraining, if_neg hDraining']
    change { deliverAll host' d.waiting
      (Desk.map f { d with draining := true }) with
        draining := false } = _
    rw [hAll]
    rfl

theorem passOn_mapped
    (h : Maps f host host')
    (d : Desk σ)
    (note : Note) :
    passOn host' (d.map f) note = (passOn host d note).map f := by
  cases note with
  | quad q => exact drain_mapped h { d with waiting := d.waiting ++ [q] }
  | line l => rfl
  | filed x => rfl

theorem passOnAll_mapped
    (h : Maps f host host')
    (notes : List Note)
    (d : Desk σ) :
    passOnAll host' notes (d.map f) = (passOnAll host notes d).map f := by
  unfold passOnAll
  induction notes generalizing d with
  | nil => rfl
  | cons note rest ih =>
      rw [List.foldl_cons, List.foldl_cons, passOn_mapped h, ih]

theorem permit_mapped
    (h : Maps f host host')
    (d : Desk σ) :
    permit host' (d.map f) =
      ((permit host d).1, (permit host d).2.map f) := by
  have hSame : (d.map f).signal = d.signal := rfl
  cases hCheck : d.signal.check with
  | some fault =>
      rw [permit_of_check_eq_some hCheck,
        permit_of_check_eq_some (hSame ▸ hCheck)]
  | none =>
      have hInterrupt :
          host'.interrupt (d.map f).far =
            ((host.interrupt d.far).1, f (host.interrupt d.far).2) :=
        h.interrupt d.far
      rw [permit_of_check_eq_none hCheck,
        permit_of_check_eq_none (hSame ▸ hCheck), hInterrupt]
      rfl

theorem runSections_mapped
    (h : Maps f host host')
    (sections : List (List Note))
    (d : Desk σ) :
    runSections host' sections (d.map f) =
      ((runSections host sections d).1,
        (runSections host sections d).2.map f) := by
  induction sections generalizing d with
  | nil => rfl
  | cons notes rest ih =>
      unfold runSections
      rw [permit_mapped h]
      cases permit host d with
      | mk stop? going =>
          cases stop? with
          | some fault => rfl
          | none =>
              dsimp only
              rw [passOnAll_mapped h, ih]

theorem runExtraction_mapped
    (h : Maps f host host')
    (e : Extraction)
    (d : Desk σ) :
    runExtraction host' e (d.map f) =
      ((runExtraction host e d).1,
        (runExtraction host e d).2.map f) := by
  unfold runExtraction
  rw [passOnAll_mapped h, runSections_mapped h]
  cases runSections host e.sections (passOnAll host e.opening d) with
  | mk stop? last => cases stop? <;> rfl

/- A part of the state does not change the result of a run. -/
theorem run_mapped
    (h : Maps f host host')
    (signal : Signal)
    (far : σ)
    (r : Request) :
    run host' signal (f far) r =
      ((run host signal far r).1, (run host signal far r).2.map f) := by
  have hRun :=
    runExtraction_mapped h r.extraction (.start signal far)
  have hStart :
      (Desk.start signal far).map f = Desk.start signal (f far) := rfl
  rw [hStart] at hRun
  unfold run
  rw [hRun]
  generalize runExtraction host r.extraction (.start signal far) = ended
  rcases ended with ⟨fault?, last⟩
  cases fault? with
  | none => rfl
  | some fault =>
      unfold conclude
      dsimp only
      split <;> rfl

end Mapped

/- Watching a consumer changes nothing for it. -/
theorem maps_watched
    (c : Consumer σ) :
    Maps Prod.fst c.watched c.host :=
  ⟨fun _ _ _ => rfl, fun _ => rfl⟩

/- The history of a consumer is that of the run it is host to. -/
theorem run_watched
    (c : Consumer σ)
    (signal : Signal)
    (far : σ)
    (r : Request) :
    run c.host signal far r =
      ((run c.watched signal (far, []) r).1,
        (run c.watched signal (far, []) r).2.map Prod.fst) :=
  run_mapped (maps_watched c) signal (far, []) r

end Handover
end LinkedMarkup
