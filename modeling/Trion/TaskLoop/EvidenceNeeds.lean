import Trion.TaskLoop.Completion
import Trion.Python.Text

/-!
# Needs of further evidence

`response_intents.py`: which tools a request asks for, found by words of the request and of the
descriptions of the offered tools.  The detector takes a need for met when one of its tools is
completed, the completion gate when all of them are.
-/

namespace Trion.TaskLoop

open Trion.Python Trion.Thinking

variable (rt : PyRuntime)

/-! ### Words -/

/-- `re.sub(r"\s+", " ", text)`. -/
def collapseSpace : List Char → List Char
  | [] => []
  | c :: cs =>
    if isSpace c then
      match cs with
      | d :: _ => if isSpace d then collapseSpace cs else ' ' :: collapseSpace cs
      | [] => [' ']
    else c :: collapseSpace cs

/-- `_normalize`. -/
def normalizeText (value : String) : String :=
  String.ofList (collapseSpace (rt.lower (strip value)).toList)

/-- `_contains_any`. -/
def containsAny (text : String) (tokens : List String) : Bool := tokens.any (containsStr text)

/-- The capabilities a request may need. -/
inductive CapabilityKind where
  | fileRead
  | timeCurrent
deriving DecidableEq, Repr

namespace CapabilityKind

/-- The name of the kind. -/
def name : CapabilityKind → String
  | .fileRead => "file_read"
  | .timeCurrent => "time_current"

/-- `_FILE_TOKENS` and `_TIME_TOKENS`. -/
def tokens : CapabilityKind → List String
  | .fileRead => ["/trion-home/", ".txt", "datei", "file", "lies", "lese", "lesen"]
  | .timeCurrent => ["wie viel uhr", "wie spät", "wie spaet", "uhrzeit", "aktuelle zeit", "utc"]

/-- `_CAPABILITY_HINTS`. -/
def hints : CapabilityKind → List String
  | .fileRead => ["file", "read", "datei", "lesen", "lies", "lese", "workspace", "document",
      "entry", "content", "path", "txt", "get"]
  | .timeCurrent => ["time", "clock", "utc", "zeit", "uhr", "datum"]

/-- The reason that the detector gives. -/
def reason : CapabilityKind → String
  | .fileRead =>
    "The request also asks for verified file content, but no file-read tool is selected."
  | .timeCurrent =>
    "The request still needs verified current time evidence from the time tool."

end CapabilityKind

/-! ### Candidates -/

/-- The name of an offered tool. -/
def offeredName : PyVal → String
  | .dict tool => strip ((PyDict.get tool "name").toStr rt)
  | tool => strip (tool.toStr rt)

/-- The keywords of a tool in one text. -/
def keywordText : PyVal → String
  | .list items => " ".intercalate ((items.map fun item => strip (item.toStr rt)).filter (· ≠ ""))
  | _ => ""

/-- `_tool_haystack`. -/
def toolHaystack : PyVal → String
  | .dict tool =>
    let values := ["name", "description", "source", "intent_description"].map (PyDict.get tool) ++
      [.str (keywordText rt (PyDict.get tool "intent_keywords"))]
    normalizeText rt (" ".intercalate (values.map fun value =>
      replaceChar '_' " " (value.strOr rt "")))
  | tool => normalizeText rt (replaceChar '_' " " (tool.strOr rt ""))

/-- The tool has enough of the hints of the kind. -/
def fitsCapability (kind : CapabilityKind) (tool : PyVal) : Bool :=
  let score := (kind.hints.filter (containsStr (toolHaystack rt tool))).length
  2 ≤ score || (kind == .timeCurrent && 1 ≤ score)

/-- `_capability_candidates`, after the names that have been found. -/
def addCandidates (kind : CapabilityKind) : List String → List PyVal → List String
  | names, [] => names
  | names, tool :: tools =>
    let name := offeredName rt tool
    if name = "" ∨ name ∈ names then addCandidates kind names tools
    else if fitsCapability rt kind tool then addCandidates kind (names ++ [name]) tools
    else addCandidates kind names tools

/-- `_capability_candidates`. -/
def capabilityCandidates (kind : CapabilityKind) (availableTools : List PyVal) : List String :=
  addCandidates rt kind [] availableTools

/-! ### Needs -/

/-- The request asks for the capability. -/
def requests (text : String) (kind : CapabilityKind) : Bool :=
  containsAny (normalizeText rt text) kind.tokens

/-- The need that a request has of a capability. -/
def evidenceNeed (availableTools : List PyVal) (kind : CapabilityKind) :
    AdditionalEvidenceNeed where
  kind := kind.name
  reason := kind.reason
  candidateTools := capabilityCandidates rt kind availableTools

/-- The needs of a request. -/
def requestNeeds (text : String) (availableTools : List PyVal) : List AdditionalEvidenceNeed :=
  ([.fileRead, .timeCurrent].filter (requests rt text)).map (evidenceNeed rt availableTools)

/-- `detect_additional_evidence_need`. -/
def detectAdditionalEvidenceNeed (text : String) (availableTools : List PyVal)
    (selectedTools completedTools : List String) : Option AdditionalEvidenceNeed :=
  let completed := (completedTools.map strip).filter (· ≠ "")
  let had (tool : String) : Bool := selectedTools.contains tool || completed.contains tool
  let fileNeed := evidenceNeed rt availableTools .fileRead
  if requests rt text .fileRead && !fileNeed.candidateTools.any had then some fileNeed
  else
    let timeNeed := evidenceNeed rt availableTools .timeCurrent
    if requests rt text .timeCurrent && !timeNeed.candidateTools.any had then some timeNeed
    else none

variable {rt} {text : String} {availableTools : List PyVal}

/-- A tool of the name is offered for the capability. -/
def Offered (rt : PyRuntime) (availableTools : List PyVal) (kind : CapabilityKind)
    (name : String) : Prop :=
  name ≠ "" ∧ ∃ tool ∈ availableTools, offeredName rt tool = name ∧ fitsCapability rt kind tool = true

lemma mem_addCandidates_iff {kind : CapabilityKind} {names : List String} {tools : List PyVal}
    {name : String} :
    name ∈ addCandidates rt kind names tools ↔ name ∈ names ∨ Offered rt tools kind name := by
  induction tools generalizing names with
  | nil => simp [addCandidates, Offered]
  | cons tool tools ih =>
    have hcons : Offered rt (tool :: tools) kind name ↔
        (name ≠ "" ∧ offeredName rt tool = name ∧ fitsCapability rt kind tool = true) ∨
          Offered rt tools kind name := by
      simp only [Offered, List.exists_mem_cons_iff, and_or_left]
    rw [addCandidates, hcons]
    split
    · rename_i hskip
      rw [ih]
      constructor
      · rintro (hold | hlater)
        · exact .inl hold
        · exact .inr (.inr hlater)
      · rintro (hold | ⟨hne, rfl, -⟩ | hlater)
        · exact .inl hold
        · exact .inl (hskip.resolve_left hne)
        · exact .inr hlater
    · rename_i hnew
      split
      · rename_i hfits
        rw [ih, List.mem_append, List.mem_singleton, or_assoc]
        refine or_congr_right (or_congr_left ⟨?_, ?_⟩)
        · rintro rfl
          exact ⟨(not_or.mp hnew).1, rfl, hfits⟩
        · rintro ⟨-, rfl, -⟩
          rfl
      · rename_i hmisfit
        rw [ih]
        exact or_congr_right ⟨.inr, fun h => h.resolve_left fun hfits => hmisfit hfits.2.2⟩

/-- The candidates are the tools that are offered for the capability. -/
lemma mem_capabilityCandidates_iff {kind : CapabilityKind} {name : String} :
    name ∈ capabilityCandidates rt kind availableTools ↔ Offered rt availableTools kind name :=
  mem_addCandidates_iff.trans (or_iff_right List.not_mem_nil)

/-- The names of offered tools are stripped. -/
lemma Offered.isName {kind : CapabilityKind} {name : String}
    (h : Offered rt availableTools kind name) : IsName name := by
  obtain ⟨hne, tool, -, rfl, -⟩ := h
  refine ⟨hne, ?_⟩
  cases tool <;> exact (strip_strip _).symm

lemma isName_of_candidate {kind : CapabilityKind} {name : String}
    (h : name ∈ capabilityCandidates rt kind availableTools) : IsName name :=
  (mem_capabilityCandidates_iff.mp h).isName

lemma mem_requestNeeds {need : AdditionalEvidenceNeed} :
    need ∈ requestNeeds rt text availableTools ↔
      ∃ kind, requests rt text kind = true ∧ evidenceNeed rt availableTools kind = need := by
  unfold requestNeeds
  rw [List.mem_map]
  refine exists_congr fun kind => ?_
  cases kind <;> simp

lemma forall_mem_requestNeeds {P : AdditionalEvidenceNeed → Prop} :
    (∀ need ∈ requestNeeds rt text availableTools, P need) ↔
      ∀ kind, requests rt text kind = true → P (evidenceNeed rt availableTools kind) := by
  simp only [mem_requestNeeds, forall_exists_index, and_imp]
  exact ⟨fun h kind hkind => h _ kind hkind rfl, fun h need kind hkind heq => heq ▸ h kind hkind⟩

/-- The names of completed tools are stripped. -/
lemma isName_of_completed {artifacts : List PyVal} {name : String}
    (h : name ∈ completedToolNames rt artifacts) : IsName name := by
  obtain ⟨artifact, -, hname⟩ := List.mem_filterMap.mp (List.mem_eraseDups.mp h)
  split at hname
  · split at hname
    · cases hname
    · dsimp only at hname
      split at hname
      · cases hname
      · rename_i hne
        obtain rfl := Option.some.inj hname
        exact ⟨hne, (strip_strip _).symm⟩
  · cases hname

lemma map_strip_of_isName {names : List String} (h : ∀ name ∈ names, IsName name) :
    (names.map strip).filter (· ≠ "") = names := by
  have hsame : names.map strip = names :=
    (List.map_congr_left fun name hname => (h name hname).2.symm).trans (List.map_id' names)
  rw [hsame, List.filter_eq_self]
  exact fun name hname => by simpa using (h name hname).1

/-- The detector reports no need exactly when each need has a tool that is selected or completed. -/
lemma detectAdditionalEvidenceNeed_eq_none_iff {selectedTools : List String}
    {artifacts : List PyVal} :
    detectAdditionalEvidenceNeed rt text availableTools selectedTools
        (completedToolNames rt artifacts) = none ↔
      ∀ need ∈ requestNeeds rt text availableTools, ∃ tool ∈ need.candidateTools,
        tool ∈ selectedTools ∨ tool ∈ completedToolNames rt artifacts := by
  have hnone (kind : CapabilityKind) :
      (requests rt text kind &&
        !(evidenceNeed rt availableTools kind).candidateTools.any fun tool =>
          selectedTools.contains tool || (completedToolNames rt artifacts).contains tool) = false ↔
      (requests rt text kind = true → ∃ tool ∈ (evidenceNeed rt availableTools kind).candidateTools,
        tool ∈ selectedTools ∨ tool ∈ completedToolNames rt artifacts) := by
    cases requests rt text kind <;> simp
  rw [forall_mem_requestNeeds]
  unfold detectAdditionalEvidenceNeed
  rw [map_strip_of_isName fun name => isName_of_completed]
  dsimp only
  constructor
  · intro h kind
    rw [← hnone kind]
    split_ifs at h with hfile htime
    cases kind with
    | fileRead => exact eq_false_of_ne_true hfile
    | timeCurrent => exact eq_false_of_ne_true htime
  · intro h
    rw [if_neg (ne_true_of_eq_false ((hnone .fileRead).mpr (h .fileRead))),
      if_neg (ne_true_of_eq_false ((hnone .timeCurrent).mpr (h .timeCurrent)))]

/-- Nothing of a need is unresolved exactly when all its tools are completed. -/
lemma unresolved_eq_nil_iff {plan : ThinkingPlan} {artifacts : List PyVal}
    {need : AdditionalEvidenceNeed} (hneed : need ∈ requestNeeds rt text availableTools) :
    unresolvedAdditionalEvidenceTools rt { plan with additionalEvidenceNeed := some need }
        artifacts = [] ↔
      ∀ tool ∈ need.candidateTools, tool ∈ completedToolNames rt artifacts := by
  obtain ⟨kind, -, rfl⟩ := mem_requestNeeds.mp hneed
  unfold unresolvedAdditionalEvidenceTools
  dsimp only
  rw [evidenceNeed, map_strip_of_isName fun name => isName_of_candidate, List.filter_eq_nil_iff]
  simp

/-! ### Standings of a need -/

section Standings

variable {T : Type} (offered selected completed : T → Prop)

/-- Tools are offered, and all of them are completed. -/
def Done : Prop := (∃ tool, offered tool) ∧ ∀ tool, offered tool → completed tool

/-- Tools are offered, and none of them is selected or completed. -/
def Untouched : Prop :=
  (∃ tool, offered tool) ∧ ∀ tool, offered tool → ¬(selected tool ∨ completed tool)

/-- One of the offered tools is selected or completed, and one of them is not completed. -/
def HalfDone : Prop :=
  (∃ tool, offered tool ∧ (selected tool ∨ completed tool)) ∧ ∃ tool, offered tool ∧ ¬completed tool

variable {offered selected completed}

variable (offered selected completed) in
/-- A need stands in one of four ways. -/
lemma standing_cases : (∀ tool, ¬offered tool) ∨ Done offered completed ∨
    Untouched offered selected completed ∨ HalfDone offered selected completed := by
  by_cases hoffered : ∃ tool, offered tool
  · by_cases hdone : ∀ tool, offered tool → completed tool
    · exact .inr (.inl ⟨hoffered, hdone⟩)
    · simp only [not_forall] at hdone
      obtain ⟨tool, htool, hopen⟩ := hdone
      by_cases hhad : ∃ tool, offered tool ∧ (selected tool ∨ completed tool)
      · exact .inr (.inr (.inr ⟨hhad, tool, htool, hopen⟩))
      · exact .inr (.inr (.inl ⟨hoffered, fun tool htool hmet => hhad ⟨tool, htool, hmet⟩⟩))
  · exact .inl (not_exists.mp hoffered)

end Standings

/-- One met tool of each need is as good as all tools of each need exactly when all needs are done,
when one is untouched, or when one has no tools while another is half done. -/
lemma any_agrees_with_all_iff {K T : Type} {asked : K → Prop} {offered : K → T → Prop}
    {selected completed : T → Prop} :
    ((∀ k, asked k → ∃ tool, offered k tool ∧ (selected tool ∨ completed tool)) ↔
      ∀ k, asked k → ∀ tool, offered k tool → completed tool) ↔
    (∀ k, asked k → Done (offered k) completed) ∨
      (∃ k, asked k ∧ Untouched (offered k) selected completed) ∨
      ((∃ k, asked k ∧ ∀ tool, ¬offered k tool) ∧
        ∃ k, asked k ∧ HalfDone (offered k) selected completed) := by
  constructor
  · intro hiff
    by_cases hall : ∀ k, asked k → ∀ tool, offered k tool → completed tool
    · refine .inl fun k hk => ⟨?_, hall k hk⟩
      obtain ⟨tool, htool, -⟩ := hiff.mpr hall k hk
      exact ⟨tool, htool⟩
    · refine .inr ?_
      by_contra hnone
      rw [not_or] at hnone
      obtain ⟨huntouched, hapart⟩ := hnone
      have hhalf : ∃ k, asked k ∧ HalfDone (offered k) selected completed := by
        simp only [not_forall] at hall
        obtain ⟨k, hk, tool, htool, hopen⟩ := hall
        rcases standing_cases (offered k) selected completed with hempty | hdone | hun | hhalf
        · exact absurd htool (hempty tool)
        · exact absurd (hdone.2 tool htool) hopen
        · exact absurd ⟨k, hk, hun⟩ huntouched
        · exact ⟨k, hk, hhalf⟩
      refine hall (hiff.mp fun k hk => ?_)
      rcases standing_cases (offered k) selected completed with
        hempty | ⟨⟨tool, htool⟩, hdone⟩ | hun | hhalf'
      · exact absurd ⟨⟨k, hk, hempty⟩, hhalf⟩ hapart
      · exact ⟨tool, htool, .inr (hdone tool htool)⟩
      · exact absurd ⟨k, hk, hun⟩ huntouched
      · exact hhalf'.1
  · rintro (hdone | ⟨k, hk, ⟨tool, htool⟩, hun⟩ | ⟨⟨k, hk, hempty⟩, k', hk', -, tool, htool, hopen⟩)
    · refine ⟨fun _ k hk => (hdone k hk).2, fun _ k hk => ?_⟩
      obtain ⟨⟨tool, htool⟩, hcompleted⟩ := hdone k hk
      exact ⟨tool, htool, .inr (hcompleted tool htool)⟩
    · constructor
      · intro hany
        obtain ⟨had, hhad, hmet⟩ := hany k hk
        exact absurd hmet (hun had hhad)
      · intro hall
        exact absurd (.inr (hall k hk tool htool)) (hun tool htool)
    · constructor
      · intro hany
        obtain ⟨had, hhad, -⟩ := hany k hk
        exact absurd hhad (hempty had)
      · intro hall
        exact absurd (hall k' hk' tool htool) hopen

/-- The detector and the gate agree on the needs of a request exactly when each capability asked
for is done, when one of them is untouched, or when no tool is offered for one of them while
another is half done. -/
theorem detector_agrees_with_gate_iff (rt : PyRuntime) (text : String) (availableTools : List PyVal)
    (selectedTools : List String) (artifacts : List PyVal) (plan : ThinkingPlan) :
    (detectAdditionalEvidenceNeed rt text availableTools selectedTools
        (completedToolNames rt artifacts) = none ↔
      ∀ need ∈ requestNeeds rt text availableTools,
        unresolvedAdditionalEvidenceTools rt { plan with additionalEvidenceNeed := some need }
          artifacts = []) ↔
    (∀ kind, requests rt text kind = true →
        Done (Offered rt availableTools kind) (· ∈ completedToolNames rt artifacts)) ∨
      (∃ kind, requests rt text kind = true ∧
        Untouched (Offered rt availableTools kind) (· ∈ selectedTools)
          (· ∈ completedToolNames rt artifacts)) ∨
      ((∃ kind, requests rt text kind = true ∧ ∀ tool, ¬Offered rt availableTools kind tool) ∧
        ∃ kind, requests rt text kind = true ∧
          HalfDone (Offered rt availableTools kind) (· ∈ selectedTools)
            (· ∈ completedToolNames rt artifacts)) := by
  have hgate : (∀ need ∈ requestNeeds rt text availableTools,
      unresolvedAdditionalEvidenceTools rt { plan with additionalEvidenceNeed := some need }
        artifacts = []) ↔
      ∀ kind, requests rt text kind = true → ∀ tool, Offered rt availableTools kind tool →
        tool ∈ completedToolNames rt artifacts := by
    have hneeds : ∀ need ∈ requestNeeds rt text availableTools,
        (unresolvedAdditionalEvidenceTools rt { plan with additionalEvidenceNeed := some need }
            artifacts = [] ↔
          ∀ tool ∈ need.candidateTools, tool ∈ completedToolNames rt artifacts) :=
      fun need hneed => unresolved_eq_nil_iff hneed
    rw [forall₂_congr hneeds]
    simp only [forall_mem_requestNeeds, evidenceNeed, mem_capabilityCandidates_iff]
  rw [detectAdditionalEvidenceNeed_eq_none_iff, hgate]
  simp only [forall_mem_requestNeeds, evidenceNeed, mem_capabilityCandidates_iff]
  exact any_agrees_with_all_iff

/-- The request of the example. -/
def readRequest : String := "lies die datei"

/-- Two tools that read files. -/
def readTools : List PyVal := [.str "file_read", .str "read_file"]

/-- One of the tools has been run. -/
def readArtifacts : List PyVal :=
  [.dict [("artifact_type", .str "tool_result"), ("tool", .str "file_read")]]

/-- The plan that is made for the request. -/
def readPlan : ThinkingPlan where
  intent := readRequest
  steps := []
  needsTaskLoop := true
  riskLevel := .safe

/-- The detector takes the need for met, and the gate asks for the other tool. -/
theorem not_detector_agrees_with_gate :
    ¬(detectAdditionalEvidenceNeed .ascii readRequest readTools []
          (completedToolNames .ascii readArtifacts) = none ↔
        ∀ need ∈ requestNeeds .ascii readRequest readTools,
          unresolvedAdditionalEvidenceTools .ascii
            { readPlan with additionalEvidenceNeed := some need } readArtifacts = []) := by
  have hmet : detectAdditionalEvidenceNeed .ascii readRequest readTools []
      (completedToolNames .ascii readArtifacts) = none := by decide +kernel
  have hneed : evidenceNeed .ascii readTools .fileRead ∈
      requestNeeds .ascii readRequest readTools :=
    mem_requestNeeds.mpr ⟨.fileRead, by decide +kernel, rfl⟩
  have hasked : unresolvedAdditionalEvidenceTools .ascii
      { readPlan with additionalEvidenceNeed := some (evidenceNeed .ascii readTools .fileRead) }
      readArtifacts = ["read_file"] := by decide +kernel
  intro hiff
  have hnone := hiff.mp hmet _ hneed
  rw [hasked] at hnone
  cases hnone

end Trion.TaskLoop
