import Trion.TaskLoop.Executor
import Trion.Verifier.AcceptedPlans

/-!
# What an accepted plan reads

The calls that the steps of an accepted plan make, for any artifacts: `build_tool_call` resolves
the arguments that the check has looked at together with those that it has not.  The check looks
at the entry id and at the step whose hits are read; a call can also take the fall-back id, which
nothing checks, an entry id that is not positive, or hits without a source step.
-/

namespace Trion.Verifier

open Trion.Python Trion.Thinking Trion.TaskLoop

section Reads

variable (rt : DocumentRuntime) (ctx : DocumentContext)

/-- The entry that a call asks for, read as the check reads it. -/
def calledEntryId (args : PyDict) : Except PyError ℤ :=
  ((PyDict.get args "entry_id").or (.int 0)).toInt rt.toPyRuntime

/-- The entry is a hit that the artifacts give for the step with this id. -/
def IsHitOf (source : String) (artifacts : List PyVal) (entryId : ℤ) : Prop :=
  ∃ hit : PyDict, PyVal.dict hit ∈ artifacts ∧
    (PyDict.get hit "artifact_type").strOr rt.toPyRuntime "" = "semantic_search_result" ∧
    (PyDict.get hit "source_step_id").strOr rt.toPyRuntime "" = source ∧
    ((PyDict.get hit "workspace_entry_id").or (.int 0)).toInt rt.toPyRuntime = .ok entryId

/-- The entry is a hit that the artifacts give for one of these searches. -/
def IsSearchHit (earlier : List PlanStep) (artifacts : List PyVal) (entryId : ℤ) : Prop :=
  ∃ search ∈ earlier, isSearch search = true ∧ IsHitOf rt search.stepId artifacts entryId

/-- Every call that the step can make asks for an entry of the document or for a hit of an
earlier search. -/
def ReadsInScope (earlier : List PlanStep) (step : PlanStep) : Prop :=
  ∀ artifacts args entryId,
    resolveToolArguments rt.toPyRuntime step.toolArguments artifacts = .ok args →
      calledEntryId rt args = .ok entryId →
        entryId ∈ ctx.workspaceEntryIds ∨ IsSearchHit rt earlier artifacts entryId

/-- All reads of the plan stay in scope. -/
def PlanReadsInScope (plan : ThinkingPlan) : Prop :=
  ∀ step index, (step, index) ∈ plan.steps.zipIdx → isRead step = true →
    ReadsInScope rt ctx (plan.steps.take index) step

/-- `int(raw.get("document_result_rank") or 0)`. -/
def resultRankOf (step : PlanStep) : Except PyError ℤ :=
  ((PyDict.get step.toolArguments "document_result_rank").or (.int 0)).toInt rt.toPyRuntime

/-- `int(raw.get("document_fallback_entry_id") or raw.get("entry_id") or 0)`. -/
def fallbackEntryIdOf (step : PlanStep) : Except PyError ℤ :=
  (((PyDict.get step.toolArguments "document_fallback_entry_id").or
    (PyDict.get step.toolArguments "entry_id")).or (.int 0)).toInt rt.toPyRuntime

/-- What the check leaves out: a read that names no source step asks for an entry of the
document; one that names it, if its rank and its fall-back are numbers, falls back to an entry of
the document, and reads the hits of a step with a name or of a search without one. -/
def ArgumentsInScope (earlier : List PlanStep) (step : PlanStep) : Prop :=
  if PyDict.has step.toolArguments "document_source_step" then
    ∀ rank fallback, resultRankOf rt step = .ok rank → fallbackEntryIdOf rt step = .ok fallback →
      fallback ∈ ctx.workspaceEntryIds ∧
        (sourceStepOf rt step ≠ "" ∨
          ∃ search ∈ earlier, isSearch search = true ∧ search.stepId = "")
  else ∀ entryId, entryIdOf rt step = .ok entryId → entryId ∈ ctx.workspaceEntryIds

end Reads

/-! ### Resolving the arguments -/

section Resolve

variable {rt : DocumentRuntime} {ctx : DocumentContext} {step : PlanStep} {artifacts : List PyVal}
  {args : PyDict} {entryId rank : ℤ} {source : String}

lemma get_map_self {d : PyDict} {key : String} {value : PyVal} (h : PyDict.has d key = true) :
    PyDict.get (d.map fun e => if e.1 == key then (key, value) else e) key = value := by
  induction d with
  | nil => exact absurd h Bool.false_ne_true
  | cons e d ih =>
    rw [List.map_cons]
    by_cases hkey : e.1 = key
    · rw [if_pos (beq_iff_eq.mpr hkey), PyDict.get_cons, if_pos rfl]
    · rw [if_neg (by simpa using hkey), PyDict.get_cons, if_neg (Ne.symm hkey)]
      exact ih (by simpa [PyDict.has, hkey] using h)

lemma get_append_self {d : PyDict} {key : String} {value : PyVal}
    (h : ¬PyDict.has d key = true) : PyDict.get (d ++ [(key, value)]) key = value := by
  induction d with
  | nil => exact (PyDict.get_cons key value [] key).trans (if_pos rfl)
  | cons e d ih =>
    simp only [PyDict.has, List.any_cons, Bool.or_eq_true, beq_iff_eq, not_or] at h
    rw [List.cons_append, PyDict.get_cons, if_neg (Ne.symm h.1)]
    exact ih h.2

/-- What has been set is read. -/
lemma get_set_self (d : PyDict) (key : String) (value : PyVal) :
    PyDict.get (PyDict.set d key value) key = value := by
  unfold PyDict.set
  split
  · rename_i hhas
    exact get_map_self hhas
  · rename_i hhas
    exact get_append_self hhas

lemma IsHitOf.cons {artifact : PyVal} (h : IsHitOf rt source artifacts entryId) :
    IsHitOf rt source (artifact :: artifacts) entryId :=
  h.imp fun _ hhit => ⟨List.mem_cons_of_mem artifact hhit.1, hhit.2⟩

/-- A hit that is found is one of the artifacts. -/
lemma isHitOf_of_found
    (h : workspaceEntryIdFromArtifacts rt.toPyRuntime source rank artifacts = .ok entryId)
    (hpos : 0 < entryId) : IsHitOf rt source artifacts entryId := by
  induction artifacts with
  | nil =>
    cases h
    exact absurd hpos (by decide)
  | cons artifact artifacts ih =>
    rw [workspaceEntryIdFromArtifacts] at h
    obtain ⟨artifactType, htype, h⟩ := ok_of_bind h
    cases artifact with
    | dict hit =>
      cases htype
      split at h
      · exact (ih h).cons
      · rename_i hkind
        obtain ⟨sourceId, hsourceId, h⟩ := ok_of_bind h
        cases hsourceId
        split at h
        · exact (ih h).cons
        · rename_i hsource
          obtain ⟨hitRank, -, h⟩ := ok_of_bind h
          split at h
          · exact (ih h).cons
          · obtain ⟨rankId, -, h⟩ := ok_of_bind h
            split at h
            · exact (ih h).cons
            · obtain ⟨found, hfound, h⟩ := ok_of_bind h
              cases hfound
              exact ⟨hit, List.mem_cons_self, not_not.mp hkind, not_not.mp hsource, h⟩
    | _ => cases htype

/-- Without a source step the arguments stay as they are. -/
lemma resolveToolArguments_of_not_has
    (h : PyDict.has step.toolArguments "document_source_step" = false) :
    resolveToolArguments rt.toPyRuntime step.toolArguments artifacts = .ok step.toolArguments := by
  rw [resolveToolArguments, h]
  rfl

lemma calledEntryId_resolved (arguments : PyDict) (resolved : ℤ) :
    calledEntryId rt (PyDict.without (PyDict.set arguments "entry_id" (.int resolved))
      documentReferenceKeys) = .ok resolved := by
  rw [calledEntryId, PyDict.get_without (by decide), get_set_self]
  by_cases hzero : resolved = 0
  · rw [hzero]
    rfl
  · simp [PyVal.or, PyVal.truthy, hzero, PyVal.toInt]

/-- With a source step the entry is the hit that is found, or else the fall-back. -/
lemma calledEntryId_of_has (h : PyDict.has step.toolArguments "document_source_step" = true)
    (hresolve : resolveToolArguments rt.toPyRuntime step.toolArguments artifacts = .ok args) :
    ∃ rank fallback found, resultRankOf rt step = .ok rank ∧
      fallbackEntryIdOf rt step = .ok fallback ∧
      workspaceEntryIdFromArtifacts rt.toPyRuntime (sourceStepOf rt step) (max 0 rank)
        artifacts = .ok found ∧
      calledEntryId rt args = .ok (if found ≤ 0 then fallback else found) := by
  rw [resolveToolArguments, h] at hresolve
  obtain ⟨rank, hrank, hresolve⟩ := ok_of_bind hresolve
  obtain ⟨fallback, hfallback, hresolve⟩ := ok_of_bind hresolve
  obtain ⟨found, hfound, hresolve⟩ := ok_of_bind hresolve
  cases hresolve
  exact ⟨rank, fallback, found, hrank, hfallback, hfound, calledEntryId_resolved _ _⟩

/-- The call is made, if the rank and the fall-back are numbers and the artifacts can be read. -/
lemma exists_call_of_has {fallback found : ℤ}
    (h : PyDict.has step.toolArguments "document_source_step" = true)
    (hrank : resultRankOf rt step = .ok rank) (hfallback : fallbackEntryIdOf rt step = .ok fallback)
    (hfound : workspaceEntryIdFromArtifacts rt.toPyRuntime (sourceStepOf rt step) (max 0 rank)
      artifacts = .ok found) :
    ∃ args, resolveToolArguments rt.toPyRuntime step.toolArguments artifacts = .ok args ∧
      calledEntryId rt args = .ok (if found ≤ 0 then fallback else found) := by
  refine ⟨_, ?_, calledEntryId_resolved step.toolArguments _⟩
  unfold resultRankOf at hrank
  unfold fallbackEntryIdOf at hfallback
  unfold sourceStepOf at hfound
  rw [resolveToolArguments, h]
  dsimp only
  rw [hrank, bind_ok, hfallback, bind_ok, hfound, bind_ok]
  rfl

/-- A search that the check knows stands before the read in the plan. -/
lemma exists_search_of_lookup {steps : List PlanStep} {position index : ℕ}
    (h : (semanticStepPositions steps).lookup source = some position) (hlt : position < index) :
    ∃ search ∈ steps.take index, isSearch search = true ∧ search.stepId = source := by
  obtain ⟨before, after, hsplit, -⟩ := List.lookup_eq_some_iff.mp h
  have hmem : (source, position) ∈ semanticStepPositions steps := by
    rw [hsplit]
    exact List.mem_append_right before List.mem_cons_self
  rw [semanticStepPositions, List.mem_reverse] at hmem
  obtain ⟨⟨search, place⟩, hsearch, heq⟩ := List.mem_map.mp hmem
  cases heq
  obtain ⟨hplace, his⟩ := List.mem_filter.mp hsearch
  refine ⟨search, ?_, his, rfl⟩
  have hget := List.mem_zipIdx_iff_getElem?.mp hplace
  exact List.mem_of_getElem? ((List.getElem?_take_of_lt hlt).trans hget)

/-- There is an entry beside any list of entries. -/
lemma exists_fresh (ids : List ℤ) : ∃ entryId, 0 < entryId ∧ entryId ∉ ids := by
  have hbound : ∃ entryId, 0 < entryId ∧ ∀ other ∈ ids, other < entryId := by
    induction ids with
    | nil => exact ⟨1, by decide, by simp⟩
    | cons first ids ih =>
      obtain ⟨entryId, hpos, hlt⟩ := ih
      refine ⟨max entryId (first + 1), by omega, fun other hother => ?_⟩
      rcases List.mem_cons.mp hother with rfl | hother
      · omega
      · have hless := hlt other hother
        omega
  obtain ⟨entryId, hpos, hlt⟩ := hbound
  exact ⟨entryId, hpos, fun hmem => Int.lt_irrefl entryId (hlt entryId hmem)⟩

/-- The artifact of a hit for a step without a name. -/
def namelessHit (rank entryId : ℤ) : PyDict :=
  [("artifact_type", .str "semantic_search_result"), ("source_step_id", .str ""),
    ("rank", .int rank), ("workspace_entry_id", .int entryId)]

lemma found_namelessHit (rt : DocumentRuntime) (rank : ℤ) (hpos : 0 < entryId) :
    workspaceEntryIdFromArtifacts rt.toPyRuntime "" rank [.dict (namelessHit rank entryId)] =
      .ok entryId := by
  have hne : entryId ≠ 0 := by omega
  simp [namelessHit, workspaceEntryIdFromArtifacts, PyVal.getAttr, PyDict.get, List.lookup_cons,
    PyVal.strOr, PyVal.or, PyVal.truthy, PyVal.toStr, PyVal.toInt, bind_ok, hne]

/-- The calls of an accepted read stay in scope just where the arguments that the check leaves
out do. -/
lemma readsInScope_iff {steps : List PlanStep} {index : ℕ}
    (hsource : sourceStepOf rt step ≠ "" → ∃ position,
      (semanticStepPositions steps).lookup (sourceStepOf rt step) = some position ∧
        position < index) :
    ReadsInScope rt ctx (steps.take index) step ↔
      ArgumentsInScope rt ctx (steps.take index) step := by
  have hnone (entryId : ℤ) : ¬IsSearchHit rt (steps.take index) [] entryId := by
    rintro ⟨search, -, -, hit, hmem, -⟩
    exact absurd hmem List.not_mem_nil
  unfold ArgumentsInScope
  by_cases hhas : PyDict.has step.toolArguments "document_source_step" = true
  · rw [if_pos hhas]
    constructor
    · intro h rank fallback hrank hfallback
      have hnothing : workspaceEntryIdFromArtifacts rt.toPyRuntime (sourceStepOf rt step)
          (max 0 rank) [] = .ok 0 := rfl
      obtain ⟨args, hresolve, hcall⟩ := exists_call_of_has hhas hrank hfallback hnothing
      refine ⟨(h [] args fallback hresolve hcall).resolve_right (hnone fallback), ?_⟩
      by_contra hnameless
      rw [not_or, not_not] at hnameless
      obtain ⟨fresh, hpos, hfresh⟩ := exists_fresh ctx.workspaceEntryIds
      have hfound := found_namelessHit rt (max 0 rank) hpos
      rw [← hnameless.1] at hfound
      obtain ⟨args, hresolve, hcall⟩ := exists_call_of_has hhas hrank hfallback hfound
      rw [if_neg (by omega)] at hcall
      rcases h _ args fresh hresolve hcall with hmem | ⟨search, hsearch, his, hit, hhit, -, hid, -⟩
      · exact hfresh hmem
      · cases List.mem_singleton.mp hhit
        exact hnameless.2 ⟨search, hsearch, his, hid.symm⟩
    · intro h artifacts args entryId hresolve hcall
      obtain ⟨rank, fallback, found, hrank, hfallback, hfound, hcalled⟩ :=
        calledEntryId_of_has hhas hresolve
      obtain ⟨hscope, hnamed⟩ := h rank fallback hrank hfallback
      rw [hcalled] at hcall
      cases hcall
      split
      · exact .inl hscope
      · rename_i hfoundPos
        have hhit := isHitOf_of_found hfound (Int.not_le.mp hfoundPos)
        refine .inr ?_
        by_cases hname : sourceStepOf rt step = ""
        · obtain ⟨search, hsearch, his, hid⟩ := hnamed.resolve_left (not_not.mpr hname)
          exact ⟨search, hsearch, his, by rw [hid, ← hname]; exact hhit⟩
        · obtain ⟨position, hlookup, hlt⟩ := hsource hname
          obtain ⟨search, hsearch, his, hid⟩ := exists_search_of_lookup hlookup hlt
          exact ⟨search, hsearch, his, by rw [hid]; exact hhit⟩
  · rw [if_neg hhas]
    rw [Bool.not_eq_true] at hhas
    constructor
    · intro h entryId hentry
      exact (h [] _ entryId (resolveToolArguments_of_not_has hhas) hentry).resolve_right
        (hnone entryId)
    · intro h artifacts args entryId hresolve hcall
      rw [resolveToolArguments_of_not_has hhas] at hresolve
      cases hresolve
      exact .inl (h entryId hcall)

end Resolve

/-! ### Whole plans -/

/-- The calls of an accepted plan stay in scope just where the arguments do that the check leaves
out. -/
theorem planReadsInScope_iff (rt : DocumentRuntime) (charCap : ℕ) (userText : String)
    (plan : ThinkingPlan) (ctx : DocumentContext)
    (hchecked : checkPlan rt charCap userText plan ctx = .ok none) :
    PlanReadsInScope rt ctx plan ↔
      ∀ step index, (step, index) ∈ plan.steps.zipIdx → isRead step = true →
        ArgumentsInScope rt ctx (plan.steps.take index) step := by
  obtain ⟨retrieval, -, -, hreads, -⟩ := checkPlan_eq_none_iff.mp hchecked
  refine forall₄_congr fun step index hmem hread => ?_
  obtain ⟨entryId, -, haccepted⟩ := checkRead_eq_none_iff.mp (hreads _ hmem hread)
  exact readsInScope_iff haccepted.sourceBefore

/-- A document with two chunks. -/
def twoChunks : DocumentContext where
  conversationId := "c"
  summary := "s"
  totalChunks := 2
  workspaceEntryIds := [1, 2]
  preferredEntryIds := []
  indexLikeEntryIds := []
  chapterCandidateEntryIds := []
  semanticKeys := ["k"]

/-- A read of the hits of a search that can fall back to an entry. -/
def fallbackRead (fallback : ℤ) : PlanStep where
  stepId := "r"
  title := ""
  goal := "q"
  tool := some "workspace_get"
  toolArguments := [("document_source_step", .str "s"),
    ("document_fallback_entry_id", .int fallback)]

/-- A plan with a search and such a read. -/
def fallbackPlan (fallback : ℤ) : ThinkingPlan where
  intent := "q"
  steps := [
    { stepId := "s", title := "", goal := "q", tool := some "memory_semantic_search" },
    fallbackRead fallback]
  needsTaskLoop := false
  riskLevel := .safe

/-- A read that falls back to an entry of the document stays in scope. -/
theorem planReadsInScope_two : PlanReadsInScope .ascii twoChunks (fallbackPlan 2) := by
  refine (planReadsInScope_iff .ascii 700 "q" (fallbackPlan 2) twoChunks (by rfl)).mpr ?_
  intro step index hmem hread
  simp only [fallbackPlan, List.zipIdx_cons, List.zipIdx_nil, List.mem_cons, List.not_mem_nil,
    or_false, Prod.mk.injEq] at hmem
  rcases hmem with ⟨rfl, -⟩ | ⟨rfl, rfl⟩
  · exact absurd hread (by decide +kernel)
  · rw [ArgumentsInScope, if_pos (by decide)]
    intro rank fallback hrank hfallback
    have htwo : fallbackEntryIdOf .ascii (fallbackRead 2) = .ok 2 := rfl
    rw [htwo] at hfallback
    cases hfallback
    exact ⟨by decide, .inl (by decide +kernel)⟩

/-- A read can fall back to an entry of another document. -/
theorem not_planReadsInScope :
    ¬∀ (rt : DocumentRuntime) (charCap : ℕ) (userText : String) (plan : ThinkingPlan)
      (ctx : DocumentContext), checkPlan rt charCap userText plan ctx = .ok none →
        PlanReadsInScope rt ctx plan := by
  intro hall
  have h := hall .ascii 700 "q" (fallbackPlan 99) twoChunks (by rfl)
  have hmem : (fallbackRead 99, 1) ∈ (fallbackPlan 99).steps.zipIdx :=
    List.mem_cons_of_mem _ List.mem_cons_self
  rcases h _ 1 hmem (by decide +kernel) [] [("entry_id", .int 99)] 99 (by rfl) (by rfl) with
    hscope | ⟨search, -, -, hit, hhit, -⟩
  · exact absurd hscope (by decide)
  · exact absurd hhit List.not_mem_nil

end Trion.Verifier
