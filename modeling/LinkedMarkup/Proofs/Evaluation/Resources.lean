import LinkedMarkup.Proofs.Evaluation.Advances
import LinkedMarkup.Proofs.Evaluation.References

/-
  This file proves which nodes the attributes of a start tag
  name: each value names one node or none, whatever else the
  tag holds. Where `about` names none, the document stands in
  for it at the root, and in HTML the node around it at a
  typed head or body.

  Key definitions include:
    * `Environment.node?`
    * `Environment.resource?`
    * `Environment.iri?`
    * `Environment.document?`
    * `Environment.given`
    * `Evaluation.standIn?`
    * `Evaluation.Named.completed`

  Main declarations:
    * `Resolution.resource_reads`
    * `Resolution.iri_reads`
    * `Evaluation.readNamed_reads`
-/

namespace LinkedMarkup

------------------------------------------------------------
-- Nodes that values name
------------------------------------------------------------

namespace Environment

open Resolution

/-
  The node that a compact name stands for, with the nodes that
  labels stand for in a supply.
-/
def node?
    (x : Environment)
    (labels : NodeSupply)
    (token : String) : Option Subject :=
  match Text.cutAtChar ':' token.toList with
  | (_, none) => none
  | (front, some tail) =>
      if String.ofList front = "_" then
        (labels.number? (String.ofList tail)).map
          (fun n => .blank (NodeSupply.node n))
      else
        ((x.start? (String.ofList front)).bind (fun start =>
          Iri.parse? (start ++ String.ofList tail))).map Subject.iri

/- The IRI that a reference gives against the base, if it is one. -/
def iri?
    (x : Environment)
    (value : String) : Option Iri :=
  (Iri.resolve x.base value).toOption.bind Iri.parse?

/-
  The IRI that an address gives: as it is, or resolved. What
  looks like a compact name is no address.
-/
def address?
    (x : Environment)
    (text : String) : Option Iri :=
  if Iri.looksAbsolute text then
    Iri.parse? text
  else if looksCompact text then
    none
  else
    x.iri? text

/- The node that a value of `about` or `resource` names. -/
def resource?
    (x : Environment)
    (labels : NodeSupply)
    (value : String) : Option Subject :=
  match bracketed? (Text.trim value).toList with
  | some name => x.node? labels name
  | none =>
      (x.node? labels (Text.trim value)).or
        ((x.address? (Text.trim value)).map Subject.iri)

/- The document: the base without its fragment, if it is an IRI. -/
def document?
    (x : Environment) : Option Iri :=
  (Iri.withoutFragment x.base).toOption.bind Iri.parse?

/- The nodes that the four attributes for resources name. -/
def given
    (x : Environment)
    (labels : NodeSupply)
    (attributes : Entries) : Evaluation.Named where
  about := (attributes.get? "about").bind (x.resource? labels)
  resource := (attributes.get? "resource").bind (x.resource? labels)
  href := ((attributes.get? "href").bind x.iri?).map Subject.iri
  src := ((attributes.get? "src").bind x.iri?).map Subject.iri

variable {x : Environment} {token name reference : String}

theorem node?_of_compact
    (h : Token.Compact token name reference)
    (labels : NodeSupply) :
    x.node? labels token =
      if name = "_" then
        (labels.number? reference).map
          (fun n => .blank (NodeSupply.node n))
      else
        ((x.start? name).bind (fun start =>
          Iri.parse? (start ++ reference))).map Subject.iri := by
  unfold node?
  rw [h.cut]
  simp only [String.ofList_toList]

theorem node?_of_not_mem
    (h : ':' ∉ token.toList)
    (labels : NodeSupply) :
    x.node? labels token = none := by
  unfold node?
  rw [Text.cutAtChar_of_not_mem h]

theorem node?_of_unnamed
    (h : ¬x.NamesNode token)
    (labels : NodeSupply) :
    x.node? labels token = none := by
  rcases Token.compact_or_not_mem token with
    ⟨name, reference, hToken⟩ | hColon
  · by_cases hName : name = "_"
    · rw [hName] at hToken
      exact absurd (.blank hToken) h
    · rw [namesNode_iff_of_compact hToken hName,
        Option.not_isSome_iff_eq_none] at h
      rw [node?_of_compact hToken, if_neg hName, h]
      rfl
  · exact node?_of_not_mem hColon labels

/- A reference names what it is resolved to. -/
theorem resource?_of_reference
    {value : String}
    (h : x.IsReference value)
    (labels : NodeSupply) :
    x.resource? labels value =
      ((Iri.resolve x.base value).toOption.bind Iri.parse?).map
        Subject.iri := by
  have hResolve :
      Iri.resolve x.base (Text.trim value) =
        Iri.resolve x.base value := by
    unfold Iri.resolve
    rw [Text.trim_trim]
  unfold resource? address? iri?
  rw [h.unbracketed]
  dsimp only
  rw [h.relative, h.undeclared, node?_of_unnamed h.unnamed, hResolve]
  rfl

/- The empty value names the document. -/
theorem resource?_empty
    (x : Environment)
    (labels : NodeSupply) :
    x.resource? labels "" = x.document?.map Subject.iri := by
  have hTrim : Text.trim "" = "" := by decide
  have hResolve :
      Iri.resolve x.base "" = Iri.withoutFragment x.base := by
    unfold Iri.resolve
    rw [hTrim]
    rfl
  rw [resource?_of_reference x.isReference_empty, hResolve]
  rfl

end Environment

------------------------------------------------------------
-- Reading values
------------------------------------------------------------

namespace Work

/- An outcome that is a fault leaves nothing to be found. -/
theorem reads_ofOutcome_bind
    {α β : Type}
    {outcome : Except Fault α}
    {next : α → Work β}
    {value : NodeSupply → β}
    (h : ∀ a, outcome = .ok a → (next a).Reads value) :
    (ofOutcome outcome >>= next).Reads value := by
  cases outcome with
  | ok a => exact h a rfl
  | error fault =>
      intro s b t hRun
      cases hRun

end Work

namespace Resolution

open Work Coupling Evaluation

theorem node_reads
    (text : String) :
    (node text).Reads (fun _ => Iri.parse? text) :=
  (advances_of_coupled (fun s =>
    node_coupled (keeping_sound (keeps_precedes s)) text)).reads
      (node_yields text)

theorem subjectNode_reads
    (text : String) :
    (subjectNode text).Reads
      (fun _ => (Iri.parse? text).map Subject.iri) :=
  (node_reads text).bind_pure (Option.map Subject.iri)

/- A label stands for the same node at any later time. -/
theorem labelledNode_reads
    (label : String) :
    (labelledNode label >>= fun b =>
        (pure (some (.blank b)) : Work (Option Subject))).Reads
      (fun later =>
        (later.number? label).map
          (fun n => .blank (NodeSupply.node n))) := by
  intro s found t hRun
  cases hRun
  rcases s.supply.number?_labelled label with ⟨n, hNode, hNumber⟩
  have hPrecedes :
      s.Precedes { s with supply := (s.supply.labelled label).2 } :=
    (keeps_precedes s).labelled (fun _ => True) s label (.refl s)
  refine ⟨hPrecedes, ?_⟩
  intro later hLater
  dsimp only
  rw [hNode, hLater.kept label n hNumber]
  rfl

theorem compactName_reads
    (scope : Scope)
    (token : String) :
    (compactName scope token).Reads
      (fun later => scope.environment.node? later token) := by
  have hAdvances : (compactName scope token).Advances :=
    advances_of_coupled (fun s =>
      compactName_coupled (keeping_sound (keeps_precedes s))
        (scopesMatch_precedes s scope) token)
  rcases Token.compact_or_not_mem token with
    ⟨name, reference, hToken⟩ | hColon
  · simp only [Environment.node?_of_compact hToken]
    by_cases hName : name = "_"
    · simp only [if_pos hName]
      unfold compactName
      rw [hToken.cut]
      simp only [String.ofList_toList, hName, beq_self_eq_true, if_true]
      exact labelledNode_reads reference
    · simp only [if_neg hName]
      refine hAdvances.reads ?_
      have hYields := compactName_yields scope hToken
      simp only [if_neg hName] at hYields
      exact hYields
  · simp only [Environment.node?_of_not_mem hColon]
    unfold compactName
    rw [Text.cutAtChar_of_not_mem hColon]
    exact reads_pure none

/- The value of `href` or `src` names an IRI or nothing. -/
theorem iri_reads
    (scope : Scope)
    (value : String) :
    (iri scope value).Reads (fun _ => scope.environment.iri? value) := by
  refine reads_ofOutcome_bind (fun text hText => ?_)
  unfold Environment.iri?
  rw [Environment.base_environment, hText]
  exact node_reads text

theorem readAddress_reads
    (scope : Scope)
    (text : String) :
    (readAddress scope text).Reads
      (fun _ =>
        (scope.environment.address? text).map Subject.iri) := by
  unfold readAddress Environment.address?
  by_cases hAbsolute : Iri.looksAbsolute text = true
  · simp only [if_pos hAbsolute]
    exact subjectNode_reads text
  · simp only [if_neg hAbsolute]
    by_cases hCompact : looksCompact text = true
    · simp only [if_pos hCompact]
      have hAdvances :
          (remark ("Dropped CURIE with undeclared prefix: " ++
            text)).Advances :=
        advances_of_coupled (fun s =>
          remark_coupled (keeping_sound (keeps_precedes s)) _)
      exact
        (hAdvances.reads (a := ()) (fun _ _ _ _ => rfl)).bind_pure
          (fun _ => none)
    · simp only [if_neg hCompact]
      refine reads_ofOutcome_bind (fun resolved hResolved => ?_)
      unfold Environment.iri?
      rw [Environment.base_environment, hResolved]
      exact subjectNode_reads resolved

/- The value of `about` or `resource` names a node or nothing. -/
theorem resource_reads
    (scope : Scope)
    (value : String) :
    (resource scope value).Reads
      (fun later => scope.environment.resource? later value) := by
  unfold Environment.resource?
  cases hOpen : bracketed? (Text.trim value).toList with
  | some name =>
      rw [resource_of_bracketed hOpen]
      exact compactName_reads scope name
  | none =>
      rw [resource_of_unbracketed hOpen]
      refine
        (compactName_reads scope (Text.trim value)).bind
          (fun found _ =>
            found.or
              ((scope.environment.address?
                (Text.trim value)).map Subject.iri)) ?_
      intro found
      cases found with
      | some node => exact reads_pure (some node)
      | none =>
          simp only [Option.none_or]
          exact readAddress_reads scope (Text.trim value)

end Resolution

------------------------------------------------------------
-- Nodes of start tags
------------------------------------------------------------

namespace Evaluation

open Work

/-
  The node that stands in for one that `about` does not name:
  at the root the document, and in HTML what is around a typed
  head or body.
-/
def standIn?
    (settings : Settings)
    (parent : Scope)
    (x : Environment)
    (isRoot : Bool)
    (name : String)
    (attributes : Entries) : Option Subject :=
  if isRoot then
    x.document?.map Subject.iri
  else if settings.isHtml && attributes.has "typeof" &&
      (name == "head" || name == "body") then
    parent.object
  else
    none

/- Nodes that are named, with one that stands in for `about`. -/
def Named.completed
    (n : Named)
    (standIn : Option Subject) : Named :=
  { n with about := n.about.or standIn }

theorem namedResource_reads
    (scope : Scope)
    (attributes : Entries)
    (key : String) :
    (namedResource scope attributes key).Reads
      (fun later =>
        (attributes.get? key).bind
          (scope.environment.resource? later)) := by
  unfold namedResource
  cases attributes.get? key with
  | none => exact reads_pure none
  | some value =>
      simp only [Option.bind_some]
      exact Resolution.resource_reads scope value

theorem namedIri_reads
    (scope : Scope)
    (attributes : Entries)
    (key : String) :
    (namedIri scope attributes key).Reads
      (fun _ =>
        ((attributes.get? key).bind scope.environment.iri?).map
          Subject.iri) := by
  unfold namedIri
  cases attributes.get? key with
  | none => exact reads_pure none
  | some value =>
      simp only [Option.bind_some]
      exact
        (Resolution.iri_reads scope value).bind_pure
          (Option.map Subject.iri)

theorem readAbout_reads
    (settings : Settings)
    (parent scope : Scope)
    (isRoot : Bool)
    (name : String)
    (attributes : Entries) :
    (readAbout settings parent scope isRoot name attributes).Reads
      (fun later =>
        (scope.environment.given later attributes).about.or
          (standIn? settings parent scope.environment isRoot name
            attributes)) := by
  refine
    (namedResource_reads scope attributes "about").bind
      (fun found _ =>
        found.or
          (standIn? settings parent scope.environment isRoot name
            attributes)) ?_
  intro found
  cases found with
  | some node => exact reads_pure (some node)
  | none =>
      simp only [Option.none_or]
      unfold standIn?
      by_cases hRoot : isRoot = true
      · simp only [if_pos hRoot]
        have hEmpty := Resolution.resource_reads scope ""
        simp only [Environment.resource?_empty] at hEmpty
        exact hEmpty
      · simp only [if_neg hRoot]
        split
        · exact reads_pure parent.object
        · exact reads_pure none

/-
  The nodes read of a start tag are those that its attributes
  name, with the one that stands in for `about`.
-/
theorem readNamed_reads
    (settings : Settings)
    (parent scope : Scope)
    (isRoot : Bool)
    (name : String)
    (attributes : Entries) :
    (readNamed settings parent scope isRoot name attributes).Reads
      (fun later =>
        (scope.environment.given later attributes).completed
          (standIn? settings parent scope.environment isRoot name
            attributes)) := by
  unfold readNamed
  refine
    (readAbout_reads settings parent scope isRoot name attributes).bind
      (fun about later =>
        { scope.environment.given later attributes with
          about := about }) ?_
  intro about
  refine
    (namedResource_reads scope attributes "resource").bind
      (fun resource later =>
        { scope.environment.given later attributes with
          about := about
          resource := resource }) ?_
  intro resource
  refine
    (namedIri_reads scope attributes "href").bind
      (fun href later =>
        { scope.environment.given later attributes with
          about := about
          resource := resource
          href := href }) ?_
  intro href
  exact
    (namedIri_reads scope attributes "src").bind_pure
      (fun src => Named.mk about resource href src)

end Evaluation
end LinkedMarkup
