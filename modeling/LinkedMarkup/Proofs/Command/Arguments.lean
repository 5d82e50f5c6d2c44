import LinkedMarkup.Command.Usage
import LinkedMarkup.Proofs.Command.Endings

/-
  This file proves how arguments become a job, and how that
  ends. Options may come in any order, each by any beginning
  of its name that no other one has. With a source after them
  they ask for the job that has what they set. Whatever the
  arguments are, a job that they ask for ends in order, unless
  the bytes of its source are no text.

  Key definitions include:
    * `Usage.Flag.IsNamedBy`
    * `Usage.Asks`
    * `Usage.Draft.job`

  Main declarations:
    * `Usage.Flag.isNamedBy_name`
    * `Folder.kind_of_refusal?`
    * `Job.runIn_in_order`
    * `Usage.read_of_asks`
    * `Usage.outcome_in_order`
    * `Usage.asked_job_in_order`
-/

namespace LinkedMarkup

------------------------------------------------------------
-- Names of options
------------------------------------------------------------

namespace Text

theorem startsWith_self
    (cs : List Char) :
    startsWith cs cs = true := by
  unfold startsWith
  have hDrop : dropFront? cs cs = some [] := by
    induction cs with
    | nil => rfl
    | cons c rest ih =>
        unfold dropFront?
        rw [if_pos (beq_self_eq_true c), ih]
  rw [hDrop]
  rfl

end Text

namespace Usage
namespace Flag

/-
  A text that stands for an option: two dashes and a beginning
  of its name that no other option has.
-/
structure IsNamedBy
    (flag : Flag)
    (name : String) : Prop where
  dashes : ∃ rest, name.toList = '-' :: '-' :: rest
  whole : '=' ∉ name.toList
  only : startingWith name.toList = [flag]

/- Every option is named by its name. -/
theorem isNamedBy_name
    (flag : Flag) :
    flag.IsNamedBy flag.name := by
  cases flag <;> exact ⟨⟨_, rfl⟩, by decide, by decide⟩

variable {flag : Flag} {name : String}

/- An option that has all of a name is the one with that name. -/
theorem IsNamedBy.eq_of_find?
    (h : flag.IsNamedBy name)
    {other : Flag}
    (hFind :
      all.find? (fun f => f.name.toList == name.toList) = some other) :
    other = flag := by
  have hName : other.name.toList = name.toList := by
    simpa using List.find?_some hFind
  have hMem : other ∈ startingWith name.toList := by
    refine List.mem_filter.mpr ⟨List.mem_of_find?_eq_some hFind, ?_⟩
    rw [hName]
    exact Text.startsWith_self _
  rw [h.only] at hMem
  exact List.mem_singleton.mp hMem

end Flag

section Pieces

variable {flag : Flag} {name : String}

theorem longPiece?_of_cut
    (h : flag.IsNamedBy name)
    {s : String}
    {value : Option (List Char)}
    (hCut : Text.cutAtChar '=' s.toList = (name.toList, value)) :
    longPiece? s = some (.named flag (value.map String.ofList)) := by
  unfold longPiece?
  rw [hCut]
  dsimp only
  cases hFind :
      Flag.all.find? (fun f => f.name.toList == name.toList) with
  | some other => rw [h.eq_of_find? hFind]
  | none =>
      dsimp only
      rw [h.only]

theorem piece?_of_dashes
    {s : String}
    (h : ∃ rest, s.toList = '-' :: '-' :: rest) :
    piece? s = longPiece? s := by
  rcases h with ⟨rest, hRest⟩
  unfold piece?
  rw [hRest]
  rfl

/- An option that is named on its own. -/
theorem piece?_of_name
    (h : flag.IsNamedBy name) :
    piece? name = some (.named flag none) := by
  rw [piece?_of_dashes h.dashes,
    longPiece?_of_cut h (Text.cutAtChar_of_not_mem h.whole)]
  rfl

/- An option that is named with a value. -/
theorem piece?_of_value
    (h : flag.IsNamedBy name)
    (value : String) :
    piece? (name ++ "=" ++ value) =
      some (.named flag (some value)) := by
  have hText :
      (name ++ "=" ++ value).toList =
        name.toList ++ '=' :: value.toList := by
    simp [String.toList_append]
  have hDashes :
      ∃ rest, (name ++ "=" ++ value).toList = '-' :: '-' :: rest := by
    rcases h.dashes with ⟨rest, hRest⟩
    rw [hText, hRest]
    exact ⟨_, rfl⟩
  have hCut :
      Text.cutAtChar '=' (name ++ "=" ++ value).toList =
        (name.toList, some value.toList) := by
    rw [hText]
    exact Text.cutAtChar_append h.whole _
  rw [piece?_of_dashes hDashes, longPiece?_of_cut h hCut,
    Option.map_some, String.ofList_toList]

/- Neither is the divider, so the other arguments are read on. -/
theorem pieces?_cons
    {s : String}
    {p : Piece}
    (hOther : s ≠ "--")
    (hPiece : piece? s = some p)
    (rest : List String) :
    pieces? (s :: rest) = (pieces? rest).map (p :: ·) := by
  rw [pieces?, hPiece]
  · cases pieces? rest <;> rfl
  · exact hOther

theorem Flag.IsNamedBy.ne_divider
    (h : flag.IsNamedBy name) :
    name ≠ "--" := by
  rintro rfl
  have hAll : (startingWith "--".toList).length = 7 := by decide
  rw [h.only] at hAll
  cases hAll

theorem value_ne_divider
    (name value : String) :
    name ++ "=" ++ value ≠ "--" := by
  intro hSame
  have hMem : '=' ∈ (name ++ "=" ++ value).toList := by
    simp [String.toList_append]
  rw [hSame] at hMem
  revert hMem
  decide

end Pieces

------------------------------------------------------------
-- What options ask for
------------------------------------------------------------

/-
  What options set, one after the other, on what was read
  before them: that remarks are shown, or a value that the
  option takes.
-/
inductive Asks : Draft → List String → Draft → Prop where
  | nothing
      (d : Draft) :
      Asks d [] d
  | debug
      {d last : Draft}
      {name : String}
      {more : List String}
      (hName : Flag.debug.IsNamedBy name)
      (hMore : Asks { d with debug := true } more last) :
      Asks d (name :: more) last
  | value
      {d next last : Draft}
      {flag : Flag}
      {name value : String}
      {more : List String}
      (hName : flag.IsNamedBy name)
      (hTaken : d.takeValue? flag value = some next)
      (hMore : Asks next more last) :
      Asks d ((name ++ "=" ++ value) :: more) last

section Asking

variable {d last : Draft} {options : List String}

/- A value that is taken sets neither source nor excess. -/
theorem Draft.source_of_takeValue?
    {next : Draft}
    {flag : Flag}
    {value : String}
    (h : d.takeValue? flag value = some next) :
    next.source = d.source ∧ next.excess = d.excess := by
  unfold takeValue? at h
  split at h
  · cases h
    exact ⟨rfl, rfl⟩
  · cases h
    exact ⟨rfl, rfl⟩
  · rcases Option.map_eq_some_iff.mp h with ⟨m, _, rfl⟩
    exact ⟨rfl, rfl⟩
  · rcases Option.map_eq_some_iff.mp h with ⟨style, _, rfl⟩
    exact ⟨rfl, rfl⟩
  · cases h

theorem Asks.source_eq
    (h : Asks d options last) :
    last.source = d.source ∧ last.excess = d.excess := by
  induction h with
  | nothing d => exact ⟨rfl, rfl⟩
  | debug _ _ ih => exact ih
  | value _ hTaken _ ih =>
      rcases Draft.source_of_takeValue? hTaken with
        ⟨hSource, hExcess⟩
      exact ⟨ih.1.trans hSource, ih.2.trans hExcess⟩

theorem readFrom_debug
    (d : Draft)
    (pieces : List Piece) :
    readFrom d (.named .debug none :: pieces) =
      readFrom { d with debug := true } pieces := by
  rw [readFrom.eq_def]
  rfl

/- What follows the options is read on from what they set. -/
theorem readFrom_of_asks
    (h : Asks d options last)
    (rest : List String) :
    (pieces? (options ++ rest)).map (readFrom d) =
      (pieces? rest).map (readFrom last) := by
  induction h with
  | nothing d => rfl
  | debug hName _ ih =>
      rw [List.cons_append,
        pieces?_cons hName.ne_divider (piece?_of_name hName),
        Option.map_map, ← ih]
      refine congrArg (fun read => Option.map read _) (funext ?_)
      intro pieces
      exact readFrom_debug _ pieces
  | value hName hTaken _ ih =>
      rw [List.cons_append,
        pieces?_cons (value_ne_divider _ _) (piece?_of_value hName _),
        Option.map_map, ← ih]
      refine congrArg (fun read => Option.map read _) (funext ?_)
      intro pieces
      rw [Function.comp_apply, readFrom, hTaken]

/- The job for a source with what options have set. -/
def Draft.job
    (d : Draft)
    (source : String) : Job :=
  ⟨.ofString source, d.base, d.media, d.listStyle,
    (d.output.filter (fun o => !o.isEmpty)).map Path.ofString, d.debug⟩

/- Options and a source after the divider ask for their job. -/
theorem read_of_asks
    (h : Asks .start options d)
    (source : String) :
    read (options ++ ["--", source]) = .run (d.job source) := by
  have hRest :
      pieces? ["--", source] = some [.divider, .plain source] :=
    rfl
  have hRead := readFrom_of_asks h ["--", source]
  rw [hRest, Option.map_some] at hRead
  rcases Option.map_eq_some_iff.mp hRead with
    ⟨pieces, hPieces, hWish⟩
  rcases h.source_eq with ⟨hSource, hExcess⟩
  have hNone : d.source = none := hSource
  have hNoMore : d.excess = false := hExcess
  unfold read
  rw [hPieces]
  dsimp only
  rw [hWish, readFrom, hNone]
  dsimp only
  rw [readFrom, readFrom]
  · unfold Draft.takePlain
    rw [hNone]
    unfold Draft.wish
    dsimp only
    rw [hNoMore]
    rfl
  · intro more hMore
    cases hMore

end Asking

end Usage

------------------------------------------------------------
-- How jobs end
------------------------------------------------------------

/- A folder only refuses an output by a fault of files. -/
theorem Folder.kind_of_refusal?
    {f : Folder}
    {p : Path}
    {fault : Fault}
    (h : f.refusal? p = some fault) :
    fault.kind = .system := by
  unfold refusal? at h
  split at h
  · cases h
    rfl
  · cases h
  · unfold obstacle? at h
    split at h
    · cases h
      rfl
    · cases h
      rfl
    · split at h
      · cases h
      · cases h
        rfl
      · cases h
        rfl

/- A job in a folder ends in order, if its source is a text. -/
theorem Job.runIn_in_order
    (j : Job)
    (f : Folder) :
    ((f.find j.source).Undecodable ∧
        j.runIn f = ⟨.fault .undecodable, none, none, []⟩) ∨
      (∃ g, (j.runIn f).Completed j g) ∨ (j.runIn f).Reported := by
  have hRefusal :
      ∀ fault,
        j.output.bind f.refusal? = some fault →
          fault.kind = .system := by
    intro fault hRefused
    rcases Option.bind_eq_some_iff.mp hRefused with ⟨p, _, hPath⟩
    exact Folder.kind_of_refusal? hPath
  by_cases hFound : (f.find j.source).Undecodable
  · exact .inl ⟨hFound, j.run_of_undecodable _ _ hFound⟩
  · exact .inr (j.completed_or_reported _ _ hFound hRefusal)

namespace Usage

/-
  Whatever the arguments are, what they leave behind in a
  folder is what the job that they ask for does: it ends in
  order, unless the bytes of its source are no text.
-/
theorem outcome_in_order
    {arguments : List String}
    {f : Folder}
    {o : Job.Outcome}
    (h : (read arguments).outcome? f = some o) :
    ∃ job,
      read arguments = .run job ∧
        (((f.find job.source).Undecodable ∧
            o = ⟨.fault .undecodable, none, none, []⟩) ∨
          (∃ g, o.Completed job g) ∨ o.Reported) := by
  cases hWish : read arguments with
  | run job =>
      rw [hWish] at h
      cases h
      exact ⟨job, rfl, job.runIn_in_order f⟩
  | version =>
      rw [hWish] at h
      cases h
  | help =>
      rw [hWish] at h
      cases h
  | mistake =>
      rw [hWish] at h
      cases h

/-
  Options in any order and a source leave behind what a job
  with all that they set does.
-/
theorem asked_job_in_order
    {options : List String}
    {d : Draft}
    (h : Asks .start options d)
    (source : String)
    (f : Folder) :
    ∃ o,
      (read (options ++ ["--", source])).outcome? f = some o ∧
        (((f.find (.ofString source)).Undecodable ∧
            o = ⟨.fault .undecodable, none, none, []⟩) ∨
          (∃ g, o.Completed (d.job source) g) ∨ o.Reported) := by
  rw [read_of_asks h]
  exact ⟨_, rfl, (d.job source).runIn_in_order f⟩

end Usage
end LinkedMarkup
