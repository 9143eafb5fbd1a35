import Trion.Verifier.AcceptedPlans

/-!
# The planner's document plans before the verifier

The steps that the planner builds for a document, against the check that the verifier makes on
them.  The two agree on most inputs, and where they do not it is one of four things: the verifier
only knows the first six entries, the planner adds a search whether or not the mode and the tools
allow one, and it has no direct read or no search for a mode that needs it.
-/

namespace Trion.Verifier

open Trion.Python Trion.Thinking

section Steps

variable {rt : DocumentRuntime} {query : String} {risk : RiskLevel} {searchDriven : Bool}
  {entryId : ℤ} {ids : List ℤ} {index : ℕ} {ctx : DocumentContext}

/-! ### One step of the planner -/

lemma toolName_workspaceStep :
    (workspaceStep query risk searchDriven entryId index).toolName = "workspace_get" := by
  have htool : (workspaceStep query risk searchDriven entryId index).tool =
      some "workspace_get" := rfl
  rw [PlanStep.toolName, htool]
  decide +kernel

lemma isRead_workspaceStep : isRead (workspaceStep query risk searchDriven entryId index) = true :=
  decide_eq_true toolName_workspaceStep

lemma isSearch_workspaceStep :
    isSearch (workspaceStep query risk searchDriven entryId index) = false := by
  rw [isSearch, toolName_workspaceStep]
  decide

lemma entryIdOf_workspaceStep :
    entryIdOf rt (workspaceStep query risk searchDriven entryId index) = .ok entryId := by
  have hget : PyDict.get (workspaceStep query risk searchDriven entryId index).toolArguments
      "entry_id" = .int entryId := by
    simp [workspaceStep, PyDict.get_cons]
  rw [entryIdOf, hget]
  by_cases hzero : entryId = 0
  · rw [hzero]
    rfl
  · simp [PyVal.or, PyVal.truthy, hzero, PyVal.toInt]

lemma sourceStepOf_workspaceStep :
    sourceStepOf rt (workspaceStep query risk searchDriven entryId index) =
      if searchDriven then semanticStepId else "" := by
  cases searchDriven with
  | false =>
    have hget : PyDict.get (workspaceStep query risk false entryId index).toolArguments
        "document_source_step" = .none := by
      simp [workspaceStep, PyDict.get, List.lookup_cons, List.lookup_nil]
    have hnone : PyVal.none.strOr rt.toPyRuntime "" = "" := rfl
    rw [sourceStepOf, hget, hnone]
    decide
  | true =>
    have hget : PyDict.get (workspaceStep query risk true entryId index).toolArguments
        "document_source_step" = .str semanticStepId := by
      simp [workspaceStep, PyDict.get, List.lookup_cons]
    have hsome : (PyVal.str semanticStepId).strOr rt.toPyRuntime "" = semanticStepId := rfl
    have hstrip : strip semanticStepId = semanticStepId := by decide +kernel
    rw [sourceStepOf, hget, hsome, hstrip]
    rfl

/-! ### The reads of the planner -/

/-- What the verifier is told of one read. -/
def readOf (searchDriven : Bool) (entryId : ℤ) : WorkspaceRead :=
  ⟨s!"workspace_{entryId}", entryId, if searchDriven then semanticStepId else ""⟩

lemma sortSteps_workspaceSteps :
    sortSteps rt (workspaceSteps query risk searchDriven ids) =
      .ok ([], if searchDriven then [] else ids.map (readOf false),
        if searchDriven then ids.map (readOf true) else []) := by
  unfold workspaceSteps
  generalize 0 = start
  induction ids generalizing start with
  | nil => cases searchDriven <;> rfl
  | cons entryId ids ih =>
    rw [List.zipIdx_cons, List.map_cons, sortSteps, isSearch_workspaceStep,
      isRead_workspaceStep, entryIdOf_workspaceStep, sourceStepOf_workspaceStep, ih (start + 1)]
    cases searchDriven <;> rfl

lemma sortSteps_append {as bs : List PlanStep}
    {x y : List String × List WorkspaceRead × List WorkspaceRead}
    (ha : sortSteps rt as = .ok x) (hb : sortSteps rt bs = .ok y) :
    sortSteps rt (as ++ bs) = .ok (x.1 ++ y.1, x.2.1 ++ y.2.1, x.2.2 ++ y.2.2) := by
  induction as generalizing x with
  | nil =>
    cases ha
    exact hb
  | cons step steps ih =>
    rw [sortSteps] at ha
    rw [List.cons_append, sortSteps]
    split at ha
    · rename_i hsearch
      obtain ⟨rest, hrest, heq⟩ := ok_of_bind ha
      cases heq
      rw [if_pos hsearch, ih hrest]
      rfl
    · rename_i hsearch
      rw [if_neg hsearch]
      split at ha
      · rename_i hread
        rw [if_pos hread]
        exact ih ha
      · rename_i hread
        rw [if_neg hread]
        obtain ⟨entryId, hentry, ha⟩ := ok_of_bind ha
        obtain ⟨rest, hrest, ha⟩ := ok_of_bind ha
        dsimp only
        rw [hentry, bind_ok, ih hrest, bind_ok]
        split at ha
        · rename_i hsource
          cases ha
          exact if_pos hsource
        · rename_i hsource
          cases ha
          exact if_neg hsource

section Accepted

variable {workspaceIds : List ℤ} {mode : String} {positions : List (String × ℕ)} {place : ℕ}

/-- A read of the planner is accepted where its entry is known and the mode lets it stand. -/
lemma checkRead_workspaceStep_iff
    (hsource : searchDriven = true →
      ∃ position, positions.lookup semanticStepId = some position ∧ position < place) :
    checkRead rt workspaceIds mode positions place
        (workspaceStep query risk searchDriven entryId index) = .ok none ↔
      (0 < entryId → entryId ∈ workspaceIds) ∧
        (mode ∈ searchFirstModes → searchDriven = true) := by
  rw [checkRead_eq_none_iff, entryIdOf_workspaceStep, sourceStepOf_workspaceStep]
  constructor
  · rintro ⟨entryId', heq, haccepted⟩
    cases heq
    refine ⟨haccepted.inScope, fun hmode => ?_⟩
    by_contra hdirect
    exact haccepted.searchDriven hmode (if_neg hdirect)
  · rintro ⟨hscope, hmode⟩
    refine ⟨entryId, rfl, hscope, fun hne => ?_, fun hfirst => ?_⟩
    · have hdriven : searchDriven = true := by
        by_contra hdirect
        exact hne (if_neg hdirect)
      rw [if_pos hdriven]
      exact hsource hdriven
    · rw [if_pos (hmode hfirst)]
      decide

lemma checkRead_workspaceSteps_iff
    (hsource : searchDriven = true →
      ∃ position, positions.lookup semanticStepId = some position ∧ position < place) :
    (∀ p ∈ (workspaceSteps query risk searchDriven ids).zipIdx place, isRead p.1 = true →
        checkRead rt workspaceIds mode positions p.2 p.1 = .ok none) ↔
      ∀ entryId ∈ ids, (0 < entryId → entryId ∈ workspaceIds) ∧
        (mode ∈ searchFirstModes → searchDriven = true) := by
  unfold workspaceSteps
  generalize 0 = index
  induction ids generalizing index place with
  | nil => simp
  | cons entryId ids ih =>
    have hlater : searchDriven = true →
        ∃ position, positions.lookup semanticStepId = some position ∧ position < place + 1 := by
      intro hdriven
      obtain ⟨position, hposition, hlt⟩ := hsource hdriven
      exact ⟨position, hposition, by omega⟩
    rw [List.zipIdx_cons, List.map_cons, List.zipIdx_cons, List.forall_mem_cons,
      List.forall_mem_cons, ih hlater (index + 1)]
    refine and_congr_left fun _ => ?_
    rw [isRead_workspaceStep, checkRead_workspaceStep_iff hsource]
    simp

end Accepted

/-! ### The searches of the planner -/

lemma semanticSteps_of_keys (query : String) (risk : RiskLevel) (hkeys : ctx.semanticKeys ≠ []) :
    ∃ step, semanticSteps query risk ctx = [step] ∧ step.stepId = semanticStepId ∧
      isSearch step = true ∧ isRead step = false := by
  have hname : strip "memory_semantic_search" = "memory_semantic_search" := by decide +kernel
  refine ⟨_, if_neg hkeys, rfl, decide_eq_true hname, decide_eq_false fun hread => ?_⟩
  exact absurd (hname.symm.trans hread) (by decide)

lemma sortSteps_semanticSteps :
    sortSteps rt (semanticSteps query risk ctx) =
      .ok (if ctx.semanticKeys = [] then [] else [semanticStepId], [], []) := by
  by_cases hkeys : ctx.semanticKeys = []
  · rw [semanticSteps, if_pos hkeys, if_pos hkeys]
    rfl
  · obtain ⟨step, hsteps, hid, hsearch, -⟩ := semanticSteps_of_keys query risk hkeys
    rw [hsteps, if_neg hkeys, sortSteps, if_pos hsearch, hid]
    rfl

lemma filter_workspaceSteps {start : ℕ} :
    ((workspaceSteps query risk searchDriven ids).zipIdx start).filter (isSearch ·.1) = [] := by
  rw [List.filter_eq_nil_iff]
  rintro ⟨step, place⟩ hmem
  have hstep : step ∈ workspaceSteps query risk searchDriven ids :=
    List.mem_of_getElem? (List.mk_mem_zipIdx_iff_le_and_getElem?_sub.mp hmem).2
  obtain ⟨⟨entryId, index⟩, -, rfl⟩ := List.mem_map.mp hstep
  rw [isSearch_workspaceStep]
  exact Bool.false_ne_true

end Steps

/-! ### The plans of the planner -/

section Plans

variable {rt : DocumentRuntime} {rawPlan : PyDict} {text : String} {tools : List String}
  {risk : RiskLevel} {plan : ThinkingPlan} {ctx : DocumentContext} {query : String}
  {ids : List ℤ} {mode : String}

lemma strip_semanticStepId : strip semanticStepId = semanticStepId := by decide +kernel

section SearchFirst

variable (hkeys : ctx.semanticKeys ≠ [])
  (hsteps : plan.steps = semanticSteps query risk ctx ++ workspaceSteps query risk true ids)

include hkeys hsteps

lemma retrievalPlan_searchFirst :
    retrievalPlan rt plan = .ok {
      searchStepIds := [semanticStepId]
      searchDrivenWorkspaceReads := (ids.map (readOf true)).take 4 } := by
  have hsorted : sortSteps rt plan.steps =
      .ok ([semanticStepId], [], ids.map (readOf true)) := by
    rw [hsteps, sortSteps_append sortSteps_semanticSteps sortSteps_workspaceSteps,
      if_neg hkeys]
    rfl
  have hresolved : (((ids.map (readOf true)).map (strip ·.sourceStep)).filter fun source =>
      source ≠ "" && source ∉ [semanticStepId]) = [] := by
    rw [List.filter_eq_nil_iff]
    intro source hsource
    obtain ⟨read, hread, rfl⟩ := List.mem_map.mp hsource
    obtain ⟨entryId, -, rfl⟩ := List.mem_map.mp hread
    have hstrip : strip (readOf true entryId).sourceStep = semanticStepId := strip_semanticStepId
    rw [hstrip]
    simp
  rw [retrievalPlan, hsorted, bind_ok]
  dsimp only
  rw [hresolved]
  rfl

lemma semanticStepPositions_searchFirst :
    semanticStepPositions plan.steps = [(semanticStepId, 0)] := by
  obtain ⟨step, hsearch, hid, his, -⟩ := semanticSteps_of_keys query risk hkeys
  rw [semanticStepPositions, hsteps, hsearch, List.singleton_append, List.zipIdx_cons,
    List.filter_cons, if_pos his, filter_workspaceSteps]
  exact congrArg (fun stepId => [(stepId, 0)]) hid

/-- Search-driven reads after the search. -/
lemma isAccepted_searchFirst :
    IsAccepted rt mode plan ctx ↔
      (mode = "structure_first" → ctx.indexLikeEntryIds.take 6 ≠ [] → ids = []) ∧
        mode ≠ "workspace_first" ∧ mode ≠ "workspace_only" ∧
        ∀ entryId ∈ ids, 0 < entryId → entryId ∈ knownEntryIds ctx := by
  obtain ⟨step, hsearch, hid, -, hread⟩ := semanticSteps_of_keys query risk
    hkeys
  have hreads : (∀ p ∈ plan.steps.zipIdx, isRead p.1 = true →
      checkRead rt (knownEntryIds ctx) mode (semanticStepPositions plan.steps) p.2 p.1 =
        .ok none) ↔ ∀ entryId ∈ ids, 0 < entryId → entryId ∈ knownEntryIds ctx := by
    rw [semanticStepPositions_searchFirst hkeys hsteps, hsteps, hsearch, List.singleton_append,
      List.zipIdx_cons, List.forall_mem_cons,
      checkRead_workspaceSteps_iff fun _ => ⟨0, by simp, Nat.one_pos⟩]
    simp [hread]
  unfold IsAccepted
  rw [retrievalPlan_searchFirst hkeys hsteps, hreads,
    semanticStepPositions_searchFirst hkeys hsteps]
  simp only [Except.ok.injEq, exists_eq_left']
  constructor
  · rintro ⟨hfits, hscope, -⟩
    refine ⟨fun hmode hindex => ?_, fun hmode => hfits.direct hmode rfl, fun hmode => ?_, hscope⟩
    · by_contra hids
      exact hfits.overview hmode hindex (by simpa using hids) rfl
    · exact absurd (hfits.noSearch hmode) (by simp)
  · rintro ⟨hoverview, hfirst, honly, hscope⟩
    refine ⟨⟨rfl, fun hmode hindex hids => ?_, fun hmode => absurd hmode hfirst,
      fun hmode => absurd hmode honly, fun _ => Nat.zero_le 1⟩, hscope, fun _ => by simp⟩
    rw [hoverview hmode hindex] at hids
    exact absurd rfl hids

end SearchFirst

section Direct

variable
  (hsteps : plan.steps = workspaceSteps query risk false ids ++ semanticSteps query risk ctx)

include hsteps

lemma retrievalPlan_direct :
    retrievalPlan rt plan = .ok {
      searchStepIds := if ctx.semanticKeys = [] then [] else [semanticStepId]
      directWorkspaceReads := (ids.map (readOf false)).take 4 } := by
  have hsorted : sortSteps rt plan.steps =
      .ok (if ctx.semanticKeys = [] then [] else [semanticStepId], ids.map (readOf false), []) := by
    rw [hsteps, sortSteps_append sortSteps_workspaceSteps sortSteps_semanticSteps,
      if_neg Bool.false_ne_true, if_neg Bool.false_ne_true, List.append_nil]
    rfl
  rw [retrievalPlan, hsorted, bind_ok]
  dsimp only
  split <;> rfl

lemma semanticStepPositions_direct :
    semanticStepPositions plan.steps ≠ [] ↔ ctx.semanticKeys ≠ [] := by
  rw [semanticStepPositions, hsteps, List.zipIdx_append, List.filter_append,
    filter_workspaceSteps, List.nil_append]
  by_cases hkeys : ctx.semanticKeys = []
  · simp [semanticSteps, hkeys]
  · obtain ⟨step, hsearch, -, his, -⟩ := semanticSteps_of_keys query risk hkeys
    rw [hsearch, List.zipIdx_cons, List.filter_cons, if_pos his]
    simp [hkeys]

/-- Direct reads before the search. -/
lemma isAccepted_direct :
    IsAccepted rt mode plan ctx ↔
      (mode = "workspace_first" → ids ≠ []) ∧
        (mode = "workspace_only" → ctx.semanticKeys = []) ∧
        (mode ∈ searchFirstModes → ctx.semanticKeys ≠ [] ∧ ids = []) ∧
        ∀ entryId ∈ ids, 0 < entryId → entryId ∈ knownEntryIds ctx := by
  have hsearches : ∀ p ∈ (semanticSteps query risk ctx).zipIdx
      (0 + (workspaceSteps query risk false ids).length), isRead p.1 = true →
        checkRead rt (knownEntryIds ctx) mode (semanticStepPositions plan.steps) p.2 p.1 =
          .ok none := by
    by_cases hkeys : ctx.semanticKeys = []
    · simp [semanticSteps, hkeys]
    · obtain ⟨step, hsearch, -, -, hread⟩ := semanticSteps_of_keys query risk
        hkeys
      simp [hsearch, hread]
  have hreads : (∀ p ∈ plan.steps.zipIdx, isRead p.1 = true →
      checkRead rt (knownEntryIds ctx) mode (semanticStepPositions plan.steps) p.2 p.1 =
        .ok none) ↔ ∀ entryId ∈ ids, (0 < entryId → entryId ∈ knownEntryIds ctx) ∧
          (mode ∈ searchFirstModes → false = true) := by
    have hdirect : false = true → ∃ position,
        (semanticStepPositions plan.steps).lookup semanticStepId = some position ∧
          position < 0 := fun h => absurd h Bool.false_ne_true
    nth_rewrite 1 [hsteps]
    rw [List.zipIdx_append, List.forall_mem_append, checkRead_workspaceSteps_iff hdirect]
    exact and_iff_left hsearches
  unfold IsAccepted
  rw [retrievalPlan_direct hsteps, hreads, semanticStepPositions_direct hsteps]
  simp only [Except.ok.injEq, exists_eq_left']
  constructor
  · rintro ⟨hfits, hscope, hsearch⟩
    refine ⟨fun hmode hids => hfits.direct hmode ?_, fun hmode => ?_, fun hmode => ?_,
      fun entryId hmem => (hscope entryId hmem).1⟩
    · rw [hids]
      rfl
    · by_contra hkeys
      have hno := hfits.noSearch hmode
      rw [if_neg hkeys] at hno
      exact absurd hno (List.cons_ne_nil _ _)
    · refine ⟨hsearch hmode, List.eq_nil_iff_forall_not_mem.mpr fun entryId hmem => ?_⟩
      exact Bool.false_ne_true ((hscope entryId hmem).2 hmode)
  · rintro ⟨hfirst, honly, hsearch, hscope⟩
    refine ⟨⟨rfl, fun _ _ hnone => absurd rfl hnone, fun hmode hnone => ?_, fun hmode => ?_,
      fun hmode => ?_⟩, fun entryId hmem => ⟨hscope entryId hmem, fun hmode => ?_⟩,
      fun hmode => (hsearch hmode).1⟩
    · exact hfirst hmode (by simpa using hnone)
    · rw [if_pos (honly hmode)]
    · have hids := (hsearch (by rw [hmode]; decide)).2
      rw [hids]
      exact Nat.zero_le 1
    · rw [(hsearch hmode).2] at hmem
      exact absurd hmem List.not_mem_nil

end Direct

lemma isAccepted_nil (hsteps : plan.steps = []) :
    IsAccepted rt mode plan ctx ↔ mode ≠ "workspace_first" ∧ mode ∉ searchFirstModes := by
  have hplan : retrievalPlan rt plan = .ok {} := by
    rw [retrievalPlan, hsteps]
    rfl
  unfold IsAccepted
  rw [hplan, hsteps]
  simp only [Except.ok.injEq, exists_eq_left']
  constructor
  · rintro ⟨hfits, -, hsearch⟩
    exact ⟨fun hmode => hfits.direct hmode rfl, fun hmode => hsearch hmode rfl⟩
  · rintro ⟨hfirst, hsearch⟩
    exact ⟨⟨rfl, fun _ _ hnone => absurd rfl hnone, fun hmode => absurd hmode hfirst,
      fun _ => rfl, fun _ => Nat.zero_le 1⟩, by simp, fun hmode => absurd hmode hsearch⟩

/-- The planner gives the verifier what it asks for: it reads only entries that the verifier
knows, has a direct read where the mode begins with one, no search where the mode has none, and a
search with no read of its own accord where the mode begins with that. -/
structure PlannerFits (ctx : DocumentContext) (mode : String) (tools : List String)
    (targets : List ℤ) : Prop where
  known : ∀ entryId ∈ targets, entryId ∈ ctx.workspaceEntryIds.take 6
  direct : mode = "workspace_first" → targets ≠ []
  noSearch : mode = "workspace_only" → tools = [] ∨ ctx.semanticKeys = []
  search : mode ∈ searchFirstModes → tools ≠ [] ∧ ctx.semanticKeys ≠ [] ∧
    ("memory_semantic_search" ∈ tools ∨ targets = [])

lemma orElse_none_eq_iff {s : String} (hempty : s ≠ "") (hnone : s ≠ "none") :
    orElse mode "none" = s ↔ mode = s := by
  unfold orElse
  split
  · rename_i hmode
    rw [hmode]
    exact ⟨fun h => absurd h.symm hnone, fun h => absurd h.symm hempty⟩
  · exact Iff.rfl

lemma orElse_none_mem_iff : orElse mode "none" ∈ searchFirstModes ↔ mode ∈ searchFirstModes := by
  simp only [searchFirstModes, List.mem_cons, List.not_mem_nil, or_false]
  rw [orElse_none_eq_iff (by decide) (by decide), orElse_none_eq_iff (by decide) (by decide)]

lemma mem_knownEntryIds {entryId : ℤ} (hpos : 0 < entryId) :
    entryId ∈ knownEntryIds ctx ↔ entryId ∈ ctx.workspaceEntryIds.take 6 := by
  simp [knownEntryIds, hpos]

/-- The verifier accepts a document plan of the planner just where the planner gives it what it
asks for. -/
theorem checkPlan_buildDocumentSteps_iff (rt : DocumentRuntime) (charCap : ℕ)
    (rawPlan : PyDict) (userText verifierText : String) (tools : List String)
    (ctx : DocumentContext) (risk : RiskLevel) (plan : ThinkingPlan)
    (hsteps : plan.steps = buildDocumentSteps rt rawPlan userText tools (some ctx) risk)
    (hmode : retrievalModeOf rt plan.contextHints = retrievalModeOf rt rawPlan) :
    checkPlan rt charCap verifierText plan ctx = .ok none ↔
      PlannerFits ctx (retrievalModeOf rt rawPlan) tools
        (documentTargets rt rawPlan userText tools ctx) := by
  rw [checkPlan_eq_none_iff, checkedMode, hmode]
  have hpos : ∀ entryId ∈ documentTargets rt rawPlan userText tools ctx, 0 < entryId :=
    fun entryId hmem => pos_of_mem_workspaceTargets hmem
  have hknown : (∀ entryId ∈ documentTargets rt rawPlan userText tools ctx,
      0 < entryId → entryId ∈ knownEntryIds ctx) ↔
      ∀ entryId ∈ documentTargets rt rawPlan userText tools ctx,
        entryId ∈ ctx.workspaceEntryIds.take 6 :=
    forall₂_congr fun entryId hmem => by
      rw [mem_knownEntryIds (hpos entryId hmem)]
      exact forall_prop_of_true (hpos entryId hmem)
  by_cases htools : tools = []
  · have hnil : plan.steps = [] := by
      rw [hsteps, buildDocumentSteps, if_pos htools]
    have htargets : documentTargets rt rawPlan userText tools ctx = [] := by
      rw [htools]
      exact workspaceTargets_nil
    rw [isAccepted_nil hnil, orElse_none_mem_iff]
    constructor
    · rintro ⟨hfirst, hsearch⟩
      refine ⟨fun entryId hmem => ?_, fun hmode => ?_, fun _ => .inl htools,
        fun hmode => absurd hmode hsearch⟩
      · rw [htargets] at hmem
        exact absurd hmem List.not_mem_nil
      · exact absurd ((orElse_none_eq_iff (by decide) (by decide)).mpr hmode) hfirst
    · intro h
      refine ⟨fun hmode => ?_, fun hmode => (h.search hmode).1 htools⟩
      exact h.direct ((orElse_none_eq_iff (by decide) (by decide)).mp hmode) htargets
  · rw [buildDocumentSteps, if_neg htools] at hsteps
    dsimp only at hsteps
    split at hsteps
    · rename_i hfirst
      obtain ⟨htool, hkeys, hfirst⟩ := searchFirst_eq_true_iff.mp hfirst
      rw [isAccepted_searchFirst hkeys hsteps, hknown]
      simp only [ne_eq]
      rw [orElse_none_eq_iff (by decide) (by decide),
        orElse_none_eq_iff (by decide) (by decide), orElse_none_eq_iff (by decide) (by decide)]
      constructor
      · rintro ⟨-, hdirect, honly, hscope⟩
        exact ⟨hscope, fun hmode => absurd hmode hdirect, fun hmode => absurd hmode honly,
          fun _ => ⟨htools, hkeys, .inl htool⟩⟩
      · intro h
        refine ⟨fun hmode _ => ?_, fun hmode => ?_, fun hmode => ?_, h.known⟩
        · refine hfirst.resolve_left fun hmem => ?_
          rw [hmode] at hmem
          exact absurd hmem (by decide)
        · refine h.direct hmode (hfirst.resolve_left fun hmem => ?_)
          rw [hmode] at hmem
          exact absurd hmem (by decide)
        · exact (h.noSearch hmode).elim htools hkeys
    · rename_i hfirst
      rw [searchFirst_eq_true_iff] at hfirst
      rw [isAccepted_direct hsteps, hknown, orElse_none_mem_iff,
        orElse_none_eq_iff (by decide) (by decide), orElse_none_eq_iff (by decide) (by decide)]
      constructor
      · rintro ⟨hdirect, honly, hsearch, hscope⟩
        exact ⟨hscope, hdirect, fun hmode => .inr (honly hmode),
          fun hmode => ⟨htools, (hsearch hmode).1, .inr (hsearch hmode).2⟩⟩
      · intro h
        refine ⟨h.direct, fun hmode => (h.noSearch hmode).resolve_left htools, fun hmode => ?_,
          h.known⟩
        obtain ⟨-, hkeys, hdriven⟩ := h.search hmode
        exact ⟨hkeys, hdriven.resolve_left fun htool => hfirst ⟨htool, hkeys, .inl hmode⟩⟩

/-- A document with one entry per chunk, whose seventh chunk is preferred. -/
def seventhChunk : DocumentContext where
  conversationId := "c"
  summary := "s"
  totalChunks := 7
  workspaceEntryIds := [1, 2, 3, 4, 5, 6, 7]
  preferredEntryIds := [7]
  indexLikeEntryIds := []
  chapterCandidateEntryIds := []
  semanticKeys := []

/-- The plan for a document, as the planner builds it. -/
def documentPlan (rt : DocumentRuntime) (rawPlan : PyDict) (userText : String)
    (tools : List String) (ctx : DocumentContext) : ThinkingPlan where
  intent := userText
  steps := buildDocumentSteps rt rawPlan userText tools (some ctx) .safe
  needsTaskLoop := false
  riskLevel := .safe
  contextHints := [("document_retrieval_mode", .str (retrievalModeOf rt rawPlan))]

/-- A direct read of the first chunk is accepted. -/
theorem checkPlan_buildDocumentSteps_first :
    checkPlan .ascii 700 "q" (documentPlan .ascii [] "q" ["workspace_get"]
      { seventhChunk with preferredEntryIds := [1] })
      { seventhChunk with preferredEntryIds := [1] } = .ok none :=
  (checkPlan_buildDocumentSteps_iff .ascii 700 [] "q" "q" ["workspace_get"]
    { seventhChunk with preferredEntryIds := [1] } .safe
    (documentPlan .ascii [] "q" ["workspace_get"] { seventhChunk with preferredEntryIds := [1] })
    rfl (by decide +kernel)).mpr
    { known := by decide +kernel
      direct := by decide +kernel
      noSearch := by decide +kernel
      search := by decide +kernel }

lemma steps_seventhChunk :
    (documentPlan .ascii [] "q" ["workspace_get"] seventhChunk).steps =
      [workspaceStep (documentQuery .ascii [] "q" seventhChunk) .safe false 7 0] := by
  have htargets : documentTargets .ascii [] "q" ["workspace_get"] seventhChunk = [7] := by
    decide +kernel
  rw [documentPlan, buildDocumentSteps, if_neg (List.cons_ne_nil _ _)]
  dsimp only
  rw [if_neg (by decide +kernel), htargets]
  rfl

/-- The planner reads the seventh chunk, which the verifier takes for one of another document. -/
theorem checkPlan_seventhChunk :
    ¬∀ (rt : DocumentRuntime) (charCap : ℕ) (rawPlan : PyDict) (userText verifierText : String)
      (tools : List String) (ctx : DocumentContext) (risk : RiskLevel) (plan : ThinkingPlan),
      (∀ entryId ∈ ctx.preferredEntryIds ++ ctx.indexLikeEntryIds ++ ctx.chapterCandidateEntryIds,
        entryId ∈ ctx.workspaceEntryIds) →
      plan.steps = buildDocumentSteps rt rawPlan userText tools (some ctx) risk →
      retrievalModeOf rt plan.contextHints = retrievalModeOf rt rawPlan →
      checkPlan rt charCap verifierText plan ctx = .ok none := by
  intro hall
  have h := hall .ascii 700 [] "q" "q" ["workspace_get"] seventhChunk .safe
    (documentPlan .ascii [] "q" ["workspace_get"] seventhChunk) (by decide) rfl (by decide +kernel)
  rw [checkPlan_eq_none_iff] at h
  obtain ⟨retrieval, hplan, hfits, hreads, hsearch⟩ := h
  have hmem : (workspaceStep (documentQuery .ascii [] "q" seventhChunk) .safe false 7 0, 0) ∈
      (documentPlan .ascii [] "q" ["workspace_get"] seventhChunk).steps.zipIdx := by
    rw [steps_seventhChunk]
    exact List.mem_cons_self
  have hread := hreads _ hmem isRead_workspaceStep
  obtain ⟨entryId, hentry, haccepted⟩ := checkRead_eq_none_iff.mp hread
  rw [entryIdOf_workspaceStep] at hentry
  cases hentry
  exact absurd (haccepted.inScope (by decide)) (by decide)

end Plans

end Trion.Verifier
