import LinkedMarkup.Proofs.Evaluation.Completion
import LinkedMarkup.Proofs.Evaluation.Naming

/-
  This file proves what it leaves behind to give a property
  its value: the literal that a text is read as depends on a
  datatype, the form of the text and a language, and each
  predicate gets it once. As long as the lists that are filled
  have not been flushed, nothing here fails.

  Key definitions include:
    * `Session.told`
    * `Work.Tells`
    * `Literal.ofText`
    * `Pending.literal`
    * `Pending.completion`
    * `Environment.datatype?`

  Main declarations:
    * `Evaluation.completePending_tells`
    * `Evaluation.completeRelations_tells`
    * `Evaluation.readDatatype_yields`
-/

namespace LinkedMarkup

------------------------------------------------------------
-- Work that only leaves notes
------------------------------------------------------------

/- A session with more notes, and with the values they file. -/
def Session.told
    (s : Session)
    (notes : List Note) : Session :=
  { s with
    lists := s.lists.filedInto (Note.filings notes)
    notes := s.notes ++ notes.toArray }

namespace Session

theorem told_nil
    (s : Session) :
    s.told [] = s := by
  unfold told
  simp [Note.filings, ListForest.filedInto]

theorem told_append
    (s : Session)
    (first second : List Note) :
    s.told (first ++ second) = (s.told first).told second := by
  unfold told
  simp [Note.filings_append, ListForest.filedInto_append]

theorem sameShape_told
    (s : Session)
    (notes : List Note) :
    s.lists.SameShape (s.told notes).lists :=
  ListForest.sameShape_filedInto _ _

theorem notes_told
    (s : Session)
    (notes : List Note) :
    (s.told notes).notes.toList = s.notes.toList ++ notes := by
  unfold told
  rw [Array.toList_append, List.toList_toArray]

end Session

namespace Work

variable {α β : Type}

/- A step gives a value, and does nothing but leave notes. -/
def Tells
    (w : Work α)
    (s : Session)
    (a : α)
    (notes : List Note) : Prop :=
  w s = (.ok a, s.told notes)

theorem tells_pure
    (a : α)
    (s : Session) :
    (pure a : Work α).Tells s a [] := by
  unfold Tells
  rw [s.told_nil]
  rfl

theorem Tells.bind
    {w : Work α}
    {next : α → Work β}
    {s : Session}
    {a : α}
    {b : β}
    {first second : List Note}
    (h : w.Tells s a first)
    (hNext : (next a).Tells (s.told first) b second) :
    (w >>= next).Tells s b (first ++ second) := by
  unfold Tells
  rw [bind_of_ok h, s.told_append]
  exact hNext

theorem Tells.bind_pure
    {w : Work α}
    {s : Session}
    {a : α}
    {notes : List Note}
    (h : w.Tells s a notes)
    (f : α → β) :
    (w >>= fun a => pure (f a)).Tells s (f a) notes := by
  unfold Tells
  rw [bind_of_ok h]
  rfl

/- A note that files nothing is all that is left behind. -/
theorem tells_note
    {n : Note}
    (h : Note.filings [n] = [])
    (s : Session) :
    (note n).Tells s () [n] := by
  unfold Tells Session.told
  rw [h]
  simp [note, ListForest.filedInto]

/- Stating a quad with both ends leaves the quad behind. -/
theorem tells_state
    (subject : Subject)
    (predicate : Iri)
    (object : Object)
    (s : Session) :
    (state (some subject) predicate (some object)).Tells s ()
      [.quad (.triple subject predicate object)] := by
  rw [Coupling.state_some]
  exact tells_note rfl s

/- A list that has not been flushed takes what is put in. -/
theorem tells_appendToList
    {s : Session}
    {list : Nat}
    (h : s.lists.flushed list = false)
    (predicate : Iri)
    (value : Object) :
    (appendToList list predicate value).Tells s ()
      [.filed ⟨list, predicate, value⟩] := by
  unfold Tells appendToList ListForest.append
  rw [h]
  simp [Session.told, note, Note.filings, ListForest.filedInto]

/-
  Steps that each leave one note, whatever else was filed
  before them, leave these notes in order.
-/
theorem tells_forEach
    {step : α → Work Unit}
    {told : α → Note}
    {values : List α}
    {s : Session}
    (h :
      ∀ a ∈ values, ∀ t : Session, s.lists.SameShape t.lists →
        (step a).Tells t () [told a]) :
    (forEach step values).Tells s () (values.map told) := by
  induction values generalizing s with
  | nil => exact tells_pure () s
  | cons a rest ih =>
      refine (h a List.mem_cons_self s (.refl _)).bind (ih ?_)
      intro b hMem t hShape
      exact h b (List.mem_cons_of_mem a hMem) t
        ((s.sameShape_told _).trans hShape)

end Work

------------------------------------------------------------
-- Literals
------------------------------------------------------------

/-
  The literal that a text gives: of a datatype if there is
  one, otherwise with a language, if that is a well-formed
  tag.
-/
def Literal.ofText
    (value : String)
    (datatype : Option Iri)
    (language : Option String) : Literal :=
  match datatype with
  | some d => .typed value d
  | none =>
      match Literal.make value none language with
      | .ok l => l
      | .error _ => .plain value

theorem Literal.value_tagged?
    {value language : String}
    {l : Literal}
    (h : Literal.tagged? value language = some l) :
    l.value = value := by
  unfold Literal.tagged? at h
  dsimp only at h
  split at h <;> cases h
  rfl

/- A literal has the text that it was made from. -/
theorem Literal.value_ofText
    (value : String)
    (datatype : Option Iri)
    (language : Option String) :
    (Literal.ofText value datatype language).value = value := by
  unfold Literal.ofText Literal.make
  cases datatype with
  | some d => rfl
  | none =>
      cases language.filter (fun l => !l.isEmpty) with
      | none => rfl
      | some l =>
          dsimp only
          cases hTagged : Literal.tagged? value l with
          | none => rfl
          | some literal => exact Literal.value_tagged? hTagged

namespace Evaluation

open Work

/- What is reported of a language that is no well-formed tag. -/
def languageRemarks
    (value : String)
    (language : Option String) : List Note :=
  match Literal.make value none language with
  | .ok _ => []
  | .error fault =>
      [.line ⟨.debug, "Language dropped: " ++ fault.text⟩]

theorem plainLiteral_tells
    (value : String)
    (language : Option String)
    (s : Session) :
    (plainLiteral value language).Tells s
      (Literal.ofText value none language)
      (languageRemarks value language) := by
  unfold plainLiteral Literal.ofText languageRemarks
  cases Literal.make value none language with
  | ok l => exact tells_pure l s
  | error fault =>
      exact (tells_note rfl s).bind_pure (fun _ => Literal.plain value)

theorem typedLiteral_tells
    (value : String)
    (datatype : Iri)
    (s : Session) :
    (typedLiteral value datatype).Tells s
      (Literal.ofText value (some datatype) none) [] :=
  tells_pure _ s

/- The datatype of a text that is in the form of a moment. -/
def inferred?
    (mayInfer : Bool)
    (content : String) : Option Iri :=
  if mayInfer then Moment.datatype? content else none

/- What is reported of the literal that a text gives. -/
def textRemarks
    (value : String)
    (datatype : Option Iri)
    (language : Option String) : List Note :=
  match datatype with
  | some _ => []
  | none => languageRemarks value language

theorem contentLiteral_tells
    (content : String)
    (mayInfer : Bool)
    (language : Option String)
    (s : Session) :
    (contentLiteral content mayInfer language).Tells s
      (Literal.ofText content (inferred? mayInfer content) language)
      (textRemarks content (inferred? mayInfer content) language) := by
  unfold contentLiteral
  change
    (match inferred? mayInfer content with
      | some datatype => typedLiteral content datatype
      | none => plainLiteral content language : Work Literal).Tells s
        _ _
  cases inferred? mayInfer content with
  | some d => exact typedLiteral_tells content d s
  | none => exact plainLiteral_tells content language s

------------------------------------------------------------
-- Values of properties
------------------------------------------------------------

/- What is noted when a predicate gets a value. -/
def valueNote
    (subject : Subject)
    (list : Nat)
    (inList : Bool)
    (value : Object)
    (predicate : Iri) : Note :=
  if inList then
    .filed ⟨list, predicate, value⟩
  else
    .quad (.triple subject predicate value)

theorem stateValue_tells
    {s : Session}
    {list : Nat}
    (h : s.lists.flushed list = false)
    (subject : Subject)
    (inList : Bool)
    (value : Object)
    (predicates : List Iri) :
    (stateValue subject list inList value predicates).Tells s ()
      (predicates.map (valueNote subject list inList value)) := by
  apply tells_forEach
  intro p _ t hShape
  unfold stateOrList valueNote
  cases inList with
  | true =>
      exact tells_appendToList ((hShape.flushed_eq list).trans h) p
        value
  | false => exact tells_state subject p value t

end Evaluation

namespace Pending

/- The datatype of a value that was captured. -/
def datatypeOf
    (p : Pending) : Option Iri :=
  p.datatype.or (Evaluation.inferred? p.infersMoment p.text)

/- The literal of the text that was captured. -/
def literal
    (p : Pending) : Literal :=
  .ofText p.text p.datatypeOf p.language

/- The value of each predicate, once, as it is noted. -/
def values
    (p : Pending) : List Note :=
  p.predicates.map
    (Evaluation.valueNote p.subject p.list p.inList
      (.literal p.literal))

/- Everything noted when a value that was captured is complete. -/
def completion
    (p : Pending) : List Note :=
  Evaluation.textRemarks p.text p.datatypeOf p.language ++ p.values

end Pending

namespace Environment

/- The datatype that attributes name in what is in force. -/
def datatype?
    (x : Environment)
    (attributes : Entries) : Option Iri :=
  ((attributes.get? "datatype").bind nonBlank?).bind x.named?

end Environment

namespace Evaluation

open Work

theorem capturedLiteral_tells
    (p : Pending)
    (s : Session) :
    (capturedLiteral p).Tells s p.literal
      (textRemarks p.text p.datatypeOf p.language) := by
  unfold capturedLiteral Pending.literal Pending.datatypeOf
  cases p.datatype with
  | some d => exact typedLiteral_tells p.text d s
  | none => exact contentLiteral_tells p.text p.infersMoment p.language s

/- A remark on a language states nothing and files nothing. -/
theorem textRemarks_silent
    (value : String)
    (datatype : Option Iri)
    (language : Option String) :
    Note.quads (textRemarks value datatype language) = [] ∧
      Note.filings (textRemarks value datatype language) = [] := by
  unfold textRemarks languageRemarks
  split
  · exact ⟨rfl, rfl⟩
  · split <;> exact ⟨rfl, rfl⟩

theorem quads_completion
    (p : Pending) :
    Note.quads p.completion =
      if p.inList then
        []
      else
        p.predicates.map (fun i =>
          .triple p.subject i (.literal p.literal)) := by
  unfold Pending.completion
  rw [Note.quads_append, (textRemarks_silent ..).1, List.nil_append]
  unfold Pending.values valueNote Note.quads
  rw [List.filterMap_map]
  cases p.inList with
  | true => exact List.filterMap_eq_nil_iff.mpr (fun _ _ => rfl)
  | false => exact congrFun List.filterMap_eq_map _

theorem filings_completion
    (p : Pending) :
    Note.filings p.completion =
      if p.inList then
        p.predicates.map (fun i => ⟨p.list, i, .literal p.literal⟩)
      else
        [] := by
  unfold Pending.completion
  rw [Note.filings_append, (textRemarks_silent ..).2, List.nil_append]
  unfold Pending.values valueNote Note.filings
  rw [List.filterMap_map]
  cases p.inList with
  | true => exact congrFun List.filterMap_eq_map _
  | false => exact List.filterMap_eq_nil_iff.mpr (fun _ _ => rfl)

/- A value that waited is complete, for each predicate once. -/
theorem completePending_tells
    {p : Pending}
    {s : Session}
    (h : s.lists.flushed p.list = false) :
    (completePending p).Tells s () p.completion := by
  refine (capturedLiteral_tells p s).bind (stateValue_tells ?_ ..)
  exact ((s.sameShape_told _).flushed_eq p.list).trans h

/- Relations that wait at a subject are all completed. -/
theorem completeRelations_tells
    {parent : Scope}
    {s : Session}
    (hSubject : parent.subject.isSome = true)
    (hOpen :
      ∀ p l, Incomplete.listed p l ∈ parent.incomplete →
        s.lists.flushed l = false)
    (node : Option Subject) :
    (completeRelations parent node).Tells s ()
      (completions parent node) := by
  rcases Option.isSome_iff_exists.mp hSubject with ⟨subject, hSome⟩
  unfold completeRelations completions
  rw [hSome]
  cases node with
  | none => exact tells_pure () s
  | some n =>
      apply tells_forEach
      intro incomplete hMem t hShape
      unfold completeRelation completion
      rw [hSome]
      cases incomplete with
      | forward p => exact tells_state subject p n.toObject t
      | reverse p => exact tells_state n p subject.toObject t
      | listed p l =>
          exact tells_appendToList
            ((hShape.flushed_eq l).trans (hOpen p l hMem)) p n.toObject

/- A datatype is read as what it names, unless it is blank. -/
theorem readDatatype_yields
    (scope : Scope)
    (attributes : Entries) :
    (readDatatype scope (attributes.get? "datatype")).Yields
      (fun found => found = scope.environment.datatype? attributes) := by
  unfold readDatatype Environment.datatype?
  cases attributes.get? "datatype" with
  | none => exact yields_pure rfl
  | some value =>
      dsimp only
      rw [Text.isEmpty_trim, Option.bind_some, Environment.nonBlank?]
      split
      · exact yields_pure rfl
      · simp only [Option.bind_some]
        exact Resolution.term_yields scope (Text.trim value)

end Evaluation
end LinkedMarkup
