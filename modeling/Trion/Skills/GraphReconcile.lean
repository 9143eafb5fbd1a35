import Mathlib.Data.List.Perm.Subperm
import Trion.Skills.GraphIndex

/-!
# The skill index converges

After a plan is carried out every installed skill should have a live row under its key, every
other live key a tombstone, and a second plan nothing to do.  A skill that is missing from the
graph is registered under a key that is made from its name alone, whatever key is stored for it;
the index converges exactly when these keys are the missing ones again.
-/

namespace Trion.Skills

open Trion.Python FirstOfKey

/-! ### Keys have no white space around them -/

lemma head_of_strip {s : String} (h : strip s = s) :
    ∀ c ∈ s.toList.head?, isSpace c = false := by
  intro c hc
  obtain ⟨rest, hrest⟩ := toList_strip_prefix s
  have hhead := List.head?_dropWhile_not isSpace s.toList
  rw [← hrest, h, List.head?_append, Option.mem_def.mp hc] at hhead
  exact hhead

lemma last_of_strip {s : String} (h : strip s = s) :
    ∀ c ∈ s.toList.getLast?, isSpace c = false := by
  intro c hc
  have hlist := congrArg String.toList h
  rw [strip, String.toList_ofList] at hlist
  rw [← hlist, List.getLast?_reverse] at hc
  have hhead := List.head?_dropWhile_not isSpace (s.toList.dropWhile isSpace).reverse
  rw [Option.mem_def.mp hc] at hhead
  exact hhead

lemma strip_replaceChar {s : String} (d : Char) (h : strip s = s) :
    strip (replaceChar d "_" s) = replaceChar d "_" s := by
  have hlist : (replaceChar d "_" s).toList = s.toList.map fun c => if c = d then '_' else c := by
    unfold replaceChar
    rw [String.toList_ofList, List.map_eq_flatMap]
    refine List.flatMap_congr fun c _ => ?_
    split <;> rfl
  refine strip_eq_self ?_ ?_
  · intro c hc
    rw [hlist, List.head?_map] at hc
    obtain ⟨c', hc', rfl⟩ := Option.map_eq_some_iff.mp (Option.mem_def.mp hc)
    split
    · decide
    · exact head_of_strip h c' hc'
  · intro c hc
    rw [hlist, List.getLast?_map] at hc
    obtain ⟨c', hc', rfl⟩ := Option.map_eq_some_iff.mp (Option.mem_def.mp hc)
    split
    · decide
    · exact last_of_strip h c' hc'

lemma strip_candidateKey (rt : GraphRuntime) (stored name : String) :
    strip (candidateKey rt stored name) = candidateKey rt stored name := by
  unfold candidateKey
  split
  · exact strip_replaceChar ' ' (strip_replaceChar '-' (rt.strip_lower _ (strip_strip name)))
  · exact strip_strip stored

/-! ### The rows that are written are read back -/

section Written

variable {rt : GraphRuntime} {raw d : PyDict} {id : ℤ}

lemma strOr_str (rt : PyRuntime) (s : String) : (PyVal.str s).strOr rt "" = s := by
  by_cases h : s = "" <;> simp [PyVal.strOr, PyVal.or, PyVal.truthy, PyVal.toStr, h]

lemma strOr_or_none (rt : PyRuntime) (s : String) :
    ((PyVal.str s).or .none).strOr rt "" = s := by
  by_cases h : s = "" <;> simp [PyVal.strOr, PyVal.or, PyVal.truthy, PyVal.toStr, h]

lemma exists_part_of_mem {p : Char → Bool} {c : Char} (hc : p c = false) {cs : List Char}
    (h : c ∈ cs) : ∃ part ∈ cs.splitOnP p, c ∈ part := by
  induction cs with
  | nil => exact absurd h List.not_mem_nil
  | cons x xs ih =>
    rw [List.splitOnP_cons_eq_if_modifyHead]
    by_cases hx : p x = true
    · rw [if_pos hx]
      have hrest : c ∈ xs := (List.mem_cons.mp h).resolve_left fun heq => by simp [← heq, hc] at hx
      obtain ⟨part, hpart, hmem⟩ := ih hrest
      exact ⟨part, List.mem_cons_of_mem _ hpart, hmem⟩
    · rw [if_neg hx]
      obtain ⟨first, rest, hparts⟩ := List.exists_cons_of_ne_nil (List.splitOnP_ne_nil p xs)
      rw [hparts] at ih ⊢
      rw [List.modifyHead_cons]
      rcases List.mem_cons.mp h with rfl | hrest
      · exact ⟨_, List.mem_cons_self, List.mem_cons_self⟩
      · obtain ⟨part, hpart, hmem⟩ := ih hrest
        rcases List.mem_cons.mp hpart with rfl | hpart
        · exact ⟨_, List.mem_cons_self, List.mem_cons_of_mem _ hmem⟩
        · exact ⟨part, List.mem_cons_of_mem _ hpart, hmem⟩

/-- A content with a colon always has a name. -/
lemma candidateName_ok (stored : String) {content : String} (h : ':' ∈ content.toList) :
    ∃ name, candidateName stored content = .ok name := by
  have hwords : strSplit content ≠ [] := by
    obtain ⟨part, hpart, hmem⟩ := exists_part_of_mem (p := isSpace) (c := ':') (by decide) h
    unfold strSplit
    rw [ne_eq, List.map_eq_nil_iff]
    exact List.ne_nil_of_mem (List.mem_filter.mpr ⟨hpart, by simp [List.ne_nil_of_mem hmem]⟩)
  unfold candidateName
  dsimp only
  generalize (if strip stored = "" ∧ ':' ∈ content.toList then strip (beforeFirst ':' content)
    else strip stored) = name
  by_cases hname : name = "" ∧ content ≠ ""
  · rw [if_pos hname]
    obtain ⟨word, rest, hsplit⟩ := List.exists_cons_of_ne_nil hwords
    exact ⟨strip word, by rw [hsplit]⟩
  · rw [if_neg hname]
    exact ⟨name, rfl⟩

lemma readMetadata_dumps (hmeta : PyDict.get raw "metadata" = .str (rt.dumps d)) (hne : d ≠ [])
    (hnodup : (OrderedDict.keys d).Nodup) (hflat : ∀ e ∈ d, IsFlat e.2) :
    readMetadata rt raw = .ok d := by
  have htext : (PyVal.str (rt.dumps d)).or (.dict []) = .str (rt.dumps d) := by
    simp [PyVal.or, PyVal.truthy, rt.dumps_ne_empty]
  have hdict : (PyVal.dict d).or (.dict []) = .dict d := by
    simp [PyVal.or, PyVal.truthy, hne]
  unfold readMetadata
  rw [hmeta, htext]
  dsimp only
  rw [rt.loads_dumps d hnodup hflat]
  dsimp only
  rw [hdict]

lemma rowNodeId_int (hid : PyDict.get raw "id" = .int id) (hpos : 0 < id) :
    rowNodeId rt raw = .ok id := by
  have htruthy : (PyVal.int id).truthy = true := by
    simp [PyVal.truthy, Int.ne_of_gt hpos]
  unfold rowNodeId
  simp [hid, PyVal.or, htruthy, PyVal.toInt]

/-- What a candidate says of a row: its key, whether it is deleted, and its id. -/
def Candidate.mark (c : Candidate) : String × Bool × ℤ := (c.skillKey, c.isDeleted, c.nodeId)

/-- A row with metadata of its own is read by its metadata. -/
lemma parse_graphRow {name key content : String} (hne : d ≠ [])
    (hnodup : (OrderedDict.keys d).Nodup) (hflat : ∀ e ∈ d, IsFlat e.2)
    (hcolon : ':' ∈ content.toList) (hpos : 0 < id)
    (hname : PyDict.get d "skill_name" = .str name) (hnoname : PyDict.get d "name" = .none)
    (hkey : PyDict.get d "skill_key" = .str key) :
    ∃ skillName, candidateName name content = .ok skillName ∧ ∃ o,
      parseSkillGraphCandidate rt (graphRow rt content d id) = .ok o ∧ o.map Candidate.mark =
        if candidateKey rt key skillName = "" then none
        else some (candidateKey rt key skillName,
          coerceBoolFlag rt (PyDict.get d "is_deleted"), id) := by
  obtain ⟨skillName, hskillName⟩ := candidateName_ok name hcolon
  refine ⟨skillName, hskillName, ?_⟩
  have hcontent : PyDict.get [("id", .int id), ("content", .str content),
      ("metadata", .str (rt.dumps d))] "content" = .str content := rfl
  have hmetadata : readMetadata rt [("id", .int id), ("content", .str content),
      ("metadata", .str (rt.dumps d))] = .ok d := readMetadata_dumps rfl hne hnodup hflat
  have hnodeId : rowNodeId rt [("id", .int id), ("content", .str content),
      ("metadata", .str (rt.dumps d))] = .ok id := rowNodeId_int rfl hpos
  unfold parseSkillGraphCandidate graphRow
  simp only [hmetadata, bind_ok, hcontent, strOr_str, hname, hnoname, strOr_or_none, hskillName,
    hkey, hnodeId]
  generalize candidateKey rt key skillName = found
  by_cases hempty : found = ""
  · rw [if_pos hempty, if_pos hempty]
    exact ⟨none, rfl, rfl⟩
  · rw [if_neg hempty, if_neg hempty]
    exact ⟨_, rfl, rfl⟩

end Written

/-- The name under which the row of a skill is read. -/
def registeredName (rt : GraphRuntime) (skill : TruthSkill) : String :=
  (candidateName skill.name (registeredContent rt skill)).toOption.getD ""

/-- The key under which a skill is registered: the one that is written, or where that is blank
the one of the name; a row without either is not read. -/
def registeredKey (rt : GraphRuntime) (skill : TruthSkill) : String :=
  candidateKey rt (writtenKey rt skill.name) (registeredName rt skill)

/-- What an action leaves: the key of the row it adds, and whether the row is a tombstone. -/
def ReconcileAction.writes (rt : GraphRuntime) : ReconcileAction → Option (String × Bool)
  | .tombstone t => some (t.skillKey, true)
  | .upsert skill =>
    if registeredKey rt skill = "" then none else some (registeredKey rt skill, false)

/-- A tombstone is for a key that was read from a row. -/
def ReconcileAction.Clean : ReconcileAction → Prop
  | .tombstone t => strip t.skillKey = t.skillKey ∧ t.skillKey ≠ ""
  | .upsert _ => True

section Added

variable {rt : GraphRuntime}

lemma colon_mem_registeredContent (skill : TruthSkill) :
    ':' ∈ (registeredContent rt skill).toList := by
  unfold registeredContent
  simp

/-- The row of an action is read as what the action writes. -/
lemma parse_row (action : ReconcileAction) (hclean : action.Clean) {id : ℤ} (hpos : 0 < id) :
    ∃ o, parseSkillGraphCandidate rt (action.row rt id) = .ok o ∧
      o.map Candidate.mark = (action.writes rt).map fun w => (w.1, w.2, id) := by
  cases action with
  | tombstone t =>
    obtain ⟨hstrip, hne⟩ := hclean
    have hnodup : (OrderedDict.keys (tombstoneMetadata rt t)).Nodup := by
      simp [tombstoneMetadata, OrderedDict.keys]
    have hflat : ∀ e ∈ tombstoneMetadata rt t, IsFlat e.2 := by
      simp [tombstoneMetadata, IsFlat]
    have hcolon : ':' ∈ (t.skillName ++ ": tombstone (" ++ t.reason ++ ")").toList := by simp
    obtain ⟨skillName, -, o, hparse, hmark⟩ :=
      parse_graphRow (List.cons_ne_nil _ _) hnodup hflat hcolon hpos rfl rfl rfl
    refine ⟨o, hparse, hmark.trans ?_⟩
    have hkey : candidateKey rt t.skillKey skillName = t.skillKey := by
      unfold candidateKey
      rw [hstrip, if_neg hne]
    rw [hkey, if_neg hne]
    rfl
  | upsert skill =>
    have hnodup : (OrderedDict.keys (registeredMetadata rt skill)).Nodup := by
      simp [registeredMetadata, OrderedDict.keys]
    have hflat : ∀ e ∈ registeredMetadata rt skill, IsFlat e.2 := by
      simp [registeredMetadata, IsFlat]
    obtain ⟨skillName, hname, o, hparse, hmark⟩ := parse_graphRow (List.cons_ne_nil _ _) hnodup
      hflat (colon_mem_registeredContent skill) hpos rfl rfl rfl
    have hregistered : registeredName rt skill = skillName := by
      unfold registeredName
      rw [hname]
      rfl
    refine ⟨o, hparse, hmark.trans ?_⟩
    have hwrites : (ReconcileAction.upsert skill).writes rt =
        if registeredKey rt skill = "" then none else some (registeredKey rt skill, false) := rfl
    rw [hwrites, registeredKey, hregistered]
    generalize candidateKey rt (writtenKey rt skill.name) skillName = found
    by_cases hempty : found = ""
    · rw [if_pos hempty, if_pos hempty]
      rfl
    · rw [if_neg hempty, if_neg hempty]
      rfl

/-- The rows that actions add are read as what the actions write, under ids of their own. -/
lemma parse_addedRows {actions : List ReconcileAction}
    (hclean : ∀ action ∈ actions, action.Clean) {next : ℤ} (hpos : 0 < next) :
    ∃ parsed, (addedRows rt next actions).mapM (parseSkillGraphCandidate rt) = .ok parsed ∧
      ((parsed.filterMap id).map fun c => (c.skillKey, c.isDeleted)) =
        actions.filterMap (ReconcileAction.writes rt) ∧
      (∀ c ∈ parsed.filterMap id, next ≤ c.nodeId) ∧
      ((parsed.filterMap id).map Candidate.nodeId).Nodup := by
  induction actions generalizing next with
  | nil => exact ⟨[], rfl, rfl, nofun, List.nodup_nil⟩
  | cons action actions ih =>
    obtain ⟨hfirst, hrest⟩ := List.forall_mem_cons.mp hclean
    obtain ⟨o, hparse, hmark⟩ := @parse_row rt action hfirst _ hpos
    obtain ⟨parsed, hparsed, hwrites, hids, hnodup⟩ := ih hrest (show 0 < next + 1 by omega)
    refine ⟨o :: parsed, ?_, ?_⟩
    · rw [addedRows, List.mapM_cons, hparse, bind_ok, hparsed]
      rfl
    · cases o with
      | none =>
        have hnone : action.writes rt = none := by
          rw [Option.map_none, eq_comm, Option.map_eq_none_iff] at hmark
          exact hmark
        rw [List.filterMap_cons_none rfl, List.filterMap_cons_none hnone]
        exact ⟨hwrites, fun c hc => by have := hids c hc; omega, hnodup⟩
      | some c =>
        obtain ⟨w, hw, hmarks⟩ := Option.map_eq_some_iff.mp hmark.symm
        have hnode : c.nodeId = next := (congrArg (fun m => m.2.2) hmarks).symm
        have hkey : (c.skillKey, c.isDeleted) = w :=
          (congrArg (fun m => (m.1, m.2.1)) hmarks).symm
        have hcons : (some c :: parsed).filterMap id = c :: parsed.filterMap id := rfl
        rw [hcons, List.filterMap_cons_some hw, List.map_cons, hwrites, hkey]
        refine ⟨rfl, ?_, ?_⟩
        · intro c' hc'
          rcases List.mem_cons.mp hc' with rfl | hc'
          · omega
          · have := hids c' hc'
            omega
        · rw [List.map_cons, List.nodup_cons]
          refine ⟨fun hmem => ?_, hnodup⟩
          obtain ⟨c', hc', hsame⟩ := List.mem_map.mp hmem
          have := hids c' hc'
          omega

end Added

/-- The ids from `next` on are new to the rows. -/
structure FreshIds (rt : GraphRuntime) (rows : List PyVal) (next : ℤ) : Prop where
  pos : 0 < next
  above : ∀ row ∈ rows, ∀ c, parseSkillGraphCandidate rt row = .ok (some c) → c.nodeId < next

/-- Rows that are added are read after those that were there. -/
lemma graphCandidates_append {rt : GraphRuntime} {rows : List PyVal} {candidates : List Candidate}
    (hread : graphCandidates rt rows = .ok candidates) {next : ℤ} (hfresh : FreshIds rt rows next)
    {actions : List ReconcileAction} (hclean : ∀ action ∈ actions, action.Clean) :
    ∃ added, graphCandidates rt (rows ++ addedRows rt next actions) = .ok (candidates ++ added) ∧
      (added.map fun c => (c.skillKey, c.isDeleted)) =
        actions.filterMap (ReconcileAction.writes rt) := by
  obtain ⟨parsed, hparsed, hdedupe⟩ := ok_of_bind hread
  obtain rfl : dedupeLatestSkillGraphCandidates (parsed.filterMap id) = candidates :=
    Except.ok.inj hdedupe
  obtain ⟨new, hnew, hwrites, hids, hnodup⟩ := @parse_addedRows rt _ hclean _ hfresh.pos
  refine ⟨new.filterMap id, ?_, hwrites⟩
  have hrowKey : ∀ c ∈ new.filterMap id, c.rowKey = .id c.nodeId := by
    intro c hc
    have hpos := hfresh.pos
    have hid := hids c hc
    exact if_pos (by omega)
  have hold : ∀ c ∈ parsed.filterMap id, c.nodeId < next := by
    intro c hc
    obtain ⟨o, ho, hoc⟩ := List.mem_filterMap.mp hc
    obtain ⟨row, hrow, hparse⟩ := exists_of_mem_forall₂ (mapM_eq_ok_iff.mp hparsed) ho
    exact hfresh.above row hrow c (hparse.trans (congrArg Except.ok hoc))
  have hall : (rows ++ addedRows rt next actions).mapM (parseSkillGraphCandidate rt) =
      .ok (parsed ++ new) := by
    rw [List.mapM_append, hparsed, bind_ok, hnew]
    rfl
  unfold graphCandidates
  rw [hall, bind_ok]
  refine congrArg Except.ok ?_
  unfold dedupeLatestSkillGraphCandidates
  rw [List.filterMap_append]
  refine firstOfKey_append (fun _ _ => List.not_mem_nil) (fun c hc c' hc' hsame => ?_) ?_
  · rw [hrowKey c hc] at hsame
    unfold Candidate.rowKey at hsame
    split at hsame
    · have hid := RowKey.id.inj hsame
      have := hids c hc
      have := hold c' hc'
      omega
    · cases hsame
  · have hkeys : (new.filterMap id).map Candidate.rowKey =
        ((new.filterMap id).map Candidate.nodeId).map RowKey.id := by
      rw [List.map_map]
      exact List.map_congr_left hrowKey
    rw [hkeys]
    exact hnodup.map fun a b h => RowKey.id.inj h

/-! ### What a plan has -/

/-- The key has a live row. -/
def HasLive (candidates : List Candidate) (sk : String) : Prop :=
  ∃ c ∈ candidates, c.skillKey = sk ∧ c.isDeleted = false

/-- The key has a tombstone. -/
def HasTombstone (candidates : List Candidate) (sk : String) : Prop :=
  ∃ c ∈ candidates, c.skillKey = sk ∧ c.isDeleted = true

/-- The number of live rows of a key. -/
def liveCount (candidates : List Candidate) (sk : String) : ℕ :=
  candidates.countP fun c => c.skillKey == sk && !c.isDeleted

/-- The number of live rows that a key may have without a tombstone. -/
def liveAllowed (truth : List (String × TruthSkill)) (sk : String) : ℕ :=
  if (OrderedDict.get? truth sk).isSome then 1 else 0

section Plan

variable {truth : List (String × TruthSkill)} {candidates added : List Candidate} {sk : String}

lemma hasLive_iff : HasLive candidates sk ↔ 0 < liveCount candidates sk := by
  simp [HasLive, liveCount, List.countP_pos_iff]

lemma not_hasLive_iff : ¬HasLive candidates sk ↔ liveCount candidates sk = 0 := by
  rw [hasLive_iff]
  omega

lemma length_live : ((newestFirst (candidates.filter (·.skillKey == sk))).filter
    fun r => !r.isDeleted).length = liveCount candidates sk := by
  have hperm := (List.mergeSort_perm (candidates.filter (·.skillKey == sk)) fun a b =>
    decide (toLex (b.updatedAt, b.nodeId) ≤ toLex (a.updatedAt, a.nodeId))).filter
      fun r => !r.isDeleted
  unfold newestFirst liveCount
  rw [hperm.length_eq, List.filter_filter, List.countP_eq_length_filter]
  simp only [Bool.and_comm]

lemma any_deleted_iff : (newestFirst (candidates.filter (·.skillKey == sk))).any
    Candidate.isDeleted = true ↔ HasTombstone candidates sk := by
  unfold newestFirst HasTombstone
  simp [and_assoc]

/-- An installed skill is upserted when its key has no live row. -/
lemma planKey_upserts : (planKey truth sk (candidates.filter (·.skillKey == sk))).upserts =
    if liveCount candidates sk = 0 then (OrderedDict.get? truth sk).toList else [] := by
  rw [← length_live]
  unfold planKey
  dsimp only
  generalize (newestFirst (candidates.filter (·.skillKey == sk))).filter
    (fun r => !r.isDeleted) = live
  cases OrderedDict.get? truth sk <;> cases live <;> simp <;> split <;> rfl

lemma planKey_skillKey {rows : List Candidate} {t : Tombstone}
    (h : t ∈ (planKey truth sk rows).tombstones) : t.skillKey = sk := by
  unfold planKey at h
  dsimp only at h
  split at h
  · exact absurd h List.not_mem_nil
  · split at h
    · exact absurd h List.not_mem_nil
    · rw [List.mem_singleton.mp h]
  · exact absurd h List.not_mem_nil
  · split at h
    · obtain ⟨r, -, rfl⟩ := List.mem_map.mp h
      rfl
    · exact absurd h List.not_mem_nil

/-- Tombstones are planned for a key without one that has more live rows than it may have. -/
lemma planKey_tombstones_ne_nil :
    (planKey truth sk (candidates.filter (·.skillKey == sk))).tombstones ≠ [] ↔
      ¬HasTombstone candidates sk ∧ liveAllowed truth sk < liveCount candidates sk := by
  rw [← length_live, ← any_deleted_iff]
  unfold planKey liveAllowed
  dsimp only
  generalize (newestFirst (candidates.filter (·.skillKey == sk))).filter
    (fun r => !r.isDeleted) = live
  generalize (newestFirst (candidates.filter (·.skillKey == sk))).any Candidate.isDeleted =
    hasTombstone
  cases OrderedDict.get? truth sk with
  | none => cases live <;> cases hasTombstone <;> simp
  | some skill =>
    rcases live with _ | ⟨r, _ | ⟨r', stale⟩⟩ <;> cases hasTombstone <;> simp

lemma mem_candidatesByKey {e : String × List Candidate} : e ∈ candidatesByKey candidates ↔
    (∃ c ∈ candidates, c.skillKey = e.1) ∧ e.1 ≠ "" ∧
      e.2 = candidates.filter (·.skillKey == e.1) := by
  unfold candidatesByKey
  simp only [List.mem_map, List.mem_eraseDups, List.mem_filter, bne_iff_ne]
  constructor
  · rintro ⟨sk, ⟨hmem, hne⟩, rfl⟩
    exact ⟨hmem, hne, rfl⟩
  · rintro ⟨hmem, hne, hrows⟩
    exact ⟨e.1, ⟨hmem, hne⟩, by rw [← hrows]⟩

lemma mem_tombstones {t : Tombstone} :
    t ∈ (planSkillGraphReconcile truth candidates).tombstones ↔
      ∃ sk, (∃ c ∈ candidates, c.skillKey = sk) ∧ sk ≠ "" ∧
        t ∈ (planKey truth sk (candidates.filter (·.skillKey == sk))).tombstones := by
  constructor
  · intro ht
    obtain ⟨plan, hplan, hin⟩ := List.mem_flatMap.mp ht
    obtain ⟨e, he, rfl⟩ := List.mem_map.mp hplan
    obtain ⟨hmem, hne, hrows⟩ := mem_candidatesByKey.mp he
    exact ⟨e.1, hmem, hne, hrows ▸ hin⟩
  · rintro ⟨sk, hmem, hne, hin⟩
    exact List.mem_flatMap.mpr ⟨_, List.mem_map_of_mem
      (mem_candidatesByKey.mpr ⟨hmem, hne, rfl⟩ :
        (sk, candidates.filter (·.skillKey == sk)) ∈ candidatesByKey candidates), hin⟩

/-- The keys that get a tombstone are the ones that need one. -/
lemma exists_tombstone_iff (hne : ∀ c ∈ candidates, c.skillKey ≠ "") :
    (∃ t ∈ (planSkillGraphReconcile truth candidates).tombstones, t.skillKey = sk) ↔
      ¬HasTombstone candidates sk ∧ liveAllowed truth sk < liveCount candidates sk := by
  rw [← planKey_tombstones_ne_nil]
  constructor
  · rintro ⟨t, ht, rfl⟩
    obtain ⟨sk, -, -, hplanned⟩ := mem_tombstones.mp ht
    rw [planKey_skillKey hplanned]
    exact List.ne_nil_of_mem hplanned
  · intro hplanned
    have hcount := (planKey_tombstones_ne_nil.mp hplanned).2
    obtain ⟨c, hc, hkey, -⟩ : HasLive candidates sk := hasLive_iff.mpr (by omega)
    obtain ⟨t, ht⟩ := List.exists_mem_of_ne_nil _ hplanned
    exact ⟨t, mem_tombstones.mpr ⟨sk, ⟨c, hc, hkey⟩, hkey ▸ hne c hc, ht⟩, planKey_skillKey ht⟩

/-- A plan is for an index whose entries are under their own keys. -/
structure Keyed (truth : List (String × TruthSkill)) : Prop where
  keyed : ∀ e ∈ truth, e.2.skillKey = e.1
  nodup : (OrderedDict.keys truth).Nodup

lemma truthIndex_keyed (rt : GraphRuntime) (file : InstalledFile) : Keyed (truthIndex rt file) := by
  have hnodup : (OrderedDict.keys (truthIndex rt file)).Nodup :=
    OrderedDict.nodup_keys_insertAll List.nodup_nil
  refine ⟨fun e he => ?_, hnodup⟩
  rcases OrderedDict.get?_insertAll (OrderedDict.get?_of_mem hnodup he) with
    ⟨x, -, hkey, hvalue⟩ | ⟨-, hnone⟩
  · rw [← hvalue]
    exact hkey
  · cases hnone

/-- The upserts are the installed skills whose key has no live row, once each. -/
lemma mem_upserts (htruth : Keyed truth) {skill : TruthSkill} :
    skill ∈ (planSkillGraphReconcile truth candidates).upserts ↔
      (skill.skillKey, skill) ∈ truth ∧ skill.skillKey ≠ "" ∧
        ¬HasLive candidates skill.skillKey := by
  have hall : ∀ skill, skill ∈ ((candidatesByKey candidates).map fun e =>
        planKey truth e.1 e.2).flatMap ReconcilePlan.upserts ++
      (truth.filter fun e => !((candidatesByKey candidates).any fun e' => e'.1 == e.1)).map
        Prod.snd → (skill.skillKey, skill) ∈ truth ∧
          (skill.skillKey ≠ "" → ¬HasLive candidates skill.skillKey) := by
    intro skill hskill
    rcases List.mem_append.mp hskill with hplanned | hunseen
    · obtain ⟨plan, hplan, hin⟩ := List.mem_flatMap.mp hplanned
      obtain ⟨e, he, rfl⟩ := List.mem_map.mp hplan
      obtain ⟨-, -, hrows⟩ := mem_candidatesByKey.mp he
      rw [hrows, planKey_upserts] at hin
      split at hin
      · rename_i hcount
        have hmem := OrderedDict.mem_of_get? (Option.mem_toList.mp hin)
        have hkey : skill.skillKey = e.1 := htruth.keyed _ hmem
        rw [hkey]
        exact ⟨hmem, fun _ => not_hasLive_iff.mpr hcount⟩
      · exact absurd hin List.not_mem_nil
    · obtain ⟨e, he, rfl⟩ := List.mem_map.mp hunseen
      obtain ⟨hmem, hnone⟩ := List.mem_filter.mp he
      rw [htruth.keyed e hmem]
      refine ⟨hmem, fun hne hlive => ?_⟩
      obtain ⟨c, hc, hkey, -⟩ := hlive
      have hseen : (candidatesByKey candidates).any (fun e' => e'.1 == e.1) = true :=
        List.any_eq_true.mpr ⟨(e.1, candidates.filter (·.skillKey == e.1)),
          mem_candidatesByKey.mpr ⟨⟨c, hc, hkey⟩, hne, rfl⟩, beq_self_eq_true _⟩
      rw [hseen] at hnone
      cases hnone
  constructor
  · intro hskill
    obtain ⟨hin, hne⟩ := List.mem_filter.mp (firstOfKey_sublist.subset hskill)
    obtain ⟨hmem, hlive⟩ := hall skill hin
    exact ⟨hmem, bne_iff_ne.mp hne, hlive (bne_iff_ne.mp hne)⟩
  · rintro ⟨hmem, hne, hlive⟩
    have hin : skill ∈ ((candidatesByKey candidates).map fun e =>
          planKey truth e.1 e.2).flatMap ReconcilePlan.upserts ++
        (truth.filter fun e => !((candidatesByKey candidates).any fun e' => e'.1 == e.1)).map
          Prod.snd := by
      by_cases hseen : (candidatesByKey candidates).any (fun e' => e'.1 == skill.skillKey) = true
      · obtain ⟨e, he, hkey⟩ := List.any_eq_true.mp hseen
        refine List.mem_append_left _ (List.mem_flatMap.mpr ⟨_, List.mem_map_of_mem he, ?_⟩)
        obtain ⟨-, -, hrows⟩ := mem_candidatesByKey.mp he
        rw [beq_iff_eq] at hkey
        rw [hrows, planKey_upserts, hkey, if_pos (not_hasLive_iff.mp hlive),
          OrderedDict.get?_of_mem htruth.nodup hmem]
        exact List.mem_singleton_self _
      · refine List.mem_append_right _ (List.mem_map.mpr ⟨(skill.skillKey, skill),
          List.mem_filter.mpr ⟨hmem, ?_⟩, rfl⟩)
        rw [Bool.eq_false_iff.mpr hseen]
        rfl
    have hkeyed : skill ∈ List.filter (fun skill => skill.skillKey != "") _ :=
      List.mem_filter.mpr ⟨hin, bne_iff_ne.mpr hne⟩
    obtain ⟨skill', hkept, hsame⟩ := @FirstOfKey.exists_of_mem _ _ _ TruthSkill.skillKey [] _ _
      hkeyed List.not_mem_nil
    obtain ⟨hmem', -⟩ := hall skill' (List.mem_filter.mp (firstOfKey_sublist.subset hkept)).1
    rw [hsame] at hmem'
    have hget := OrderedDict.get?_of_mem htruth.nodup hmem
    rw [OrderedDict.get?_of_mem htruth.nodup hmem', Option.some.injEq] at hget
    exact hget ▸ hkept

lemma nodup_upserts : ((planSkillGraphReconcile truth candidates).upserts.map
    TruthSkill.skillKey).Nodup := nodup_keys_firstOfKey.1

end Plan

/-! ### After a plan -/

/-- The index agrees with what is installed, and there is nothing more to do. -/
structure Converged (truth : List (String × TruthSkill)) (candidates : List Candidate) : Prop where
  installed : ∀ e ∈ truth, HasLive candidates e.1
  others : ∀ sk, OrderedDict.get? truth sk = none → HasLive candidates sk →
    HasTombstone candidates sk
  settled : planSkillGraphReconcile truth candidates = ⟨[], []⟩

section After

variable {rt : GraphRuntime} {truth : List (String × TruthSkill)} {rows : List PyVal}
  {candidates added : List Candidate} {sk : String}

/-- A candidate has a key without white space around it. -/
lemma skillKey_of_parse {row : PyVal} {c : Candidate}
    (h : parseSkillGraphCandidate rt row = .ok (some c)) :
    c.skillKey ≠ "" ∧ strip c.skillKey = c.skillKey := by
  unfold parseSkillGraphCandidate at h
  split at h
  · obtain ⟨meta_, -, h⟩ := ok_of_bind h
    obtain ⟨skillName, -, h⟩ := ok_of_bind h
    dsimp only at h
    split at h
    · cases h
    · rename_i hne
      obtain ⟨nodeId, -, h⟩ := ok_of_bind h
      obtain rfl := Option.some.inj (Except.ok.inj h)
      dsimp only
      exact ⟨hne, strip_candidateKey _ _ _⟩
  · cases h

lemma skillKey_of_read (hread : graphCandidates rt rows = .ok candidates) :
    ∀ c ∈ candidates, c.skillKey ≠ "" ∧ strip c.skillKey = c.skillKey := by
  obtain ⟨parsed, hparsed, hdedupe⟩ := ok_of_bind hread
  obtain rfl : dedupeLatestSkillGraphCandidates (parsed.filterMap id) = candidates :=
    Except.ok.inj hdedupe
  intro c hc
  obtain ⟨o, ho, hoc⟩ := List.mem_filterMap.mp (firstOfKey_sublist.subset hc)
  obtain ⟨row, -, hparse⟩ := exists_of_mem_forall₂ (mapM_eq_ok_iff.mp hparsed) ho
  exact skillKey_of_parse (hparse.trans (congrArg Except.ok hoc))

/-- The tombstones of a plan are for keys that were read. -/
lemma clean_of_read (hread : graphCandidates rt rows = .ok candidates) :
    ∀ action ∈ (planSkillGraphReconcile truth candidates).actions, action.Clean := by
  intro action haction
  rcases List.mem_append.mp haction with htomb | hup
  · obtain ⟨t, ht, rfl⟩ := List.mem_map.mp htomb
    obtain ⟨sk, ⟨c, hc, hkey⟩, -, hplanned⟩ := mem_tombstones.mp ht
    obtain ⟨hne, hstrip⟩ := skillKey_of_read hread c hc
    have hsame : t.skillKey = c.skillKey := (planKey_skillKey hplanned).trans hkey.symm
    exact ⟨by rw [hsame, hstrip], by rwa [hsame]⟩
  · obtain ⟨skill, -, rfl⟩ := List.mem_map.mp hup
    trivial

/-- The rows of a plan carry the keys of its tombstones and the keys its skills are registered
under. -/
structure Carries (rt : GraphRuntime) (plan : ReconcilePlan) (added : List Candidate) : Prop where
  tombstone : ∀ sk, HasTombstone added sk ↔ ∃ t ∈ plan.tombstones, t.skillKey = sk
  live : ∀ sk, sk ≠ "" →
    liveCount added sk = (plan.upserts.map (registeredKey rt)).count sk

lemma carries_of_writes {plan : ReconcilePlan}
    (hwrites : (added.map fun c => (c.skillKey, c.isDeleted)) =
      plan.actions.filterMap (ReconcileAction.writes rt)) : Carries rt plan added := by
  have hmem : ∀ sk b, (∃ c ∈ added, c.skillKey = sk ∧ c.isDeleted = b) ↔
      ∃ action ∈ plan.actions, action.writes rt = some (sk, b) := by
    intro sk b
    rw [← List.mem_filterMap, ← hwrites]
    simp [List.mem_map]
  constructor
  · intro sk
    refine (hmem sk true).trans ?_
    unfold ReconcilePlan.actions
    constructor
    · rintro ⟨action, haction, hw⟩
      rcases List.mem_append.mp haction with htomb | hup
      · obtain ⟨t, ht, rfl⟩ := List.mem_map.mp htomb
        exact ⟨t, ht, congrArg Prod.fst (Option.some.inj hw)⟩
      · obtain ⟨skill, -, rfl⟩ := List.mem_map.mp hup
        have hwrites : (ReconcileAction.upsert skill).writes rt = if registeredKey rt skill = ""
            then none else some (registeredKey rt skill, false) := rfl
        rw [hwrites] at hw
        split_ifs at hw
        exact absurd (congrArg Prod.snd (Option.some.inj hw)) Bool.false_ne_true
    · rintro ⟨t, ht, rfl⟩
      exact ⟨.tombstone t, List.mem_append_left _ (List.mem_map_of_mem ht), rfl⟩
  · intro sk hne
    have hcount : liveCount added sk =
        (added.map fun c => (c.skillKey, c.isDeleted)).countP fun w => w == (sk, false) := by
      unfold liveCount
      rw [List.countP_map]
      refine List.countP_congr fun c _ => ?_
      simp [Prod.ext_iff]
    rw [hcount, hwrites]
    unfold ReconcilePlan.actions
    rw [List.filterMap_append, List.countP_append]
    have htombs : (plan.tombstones.map ReconcileAction.tombstone).filterMap
        (ReconcileAction.writes rt) = plan.tombstones.map fun t => (t.skillKey, true) := by
      rw [List.filterMap_map, ← List.filterMap_eq_map]
      rfl
    have hzero : (plan.tombstones.map fun t => (t.skillKey, true)).countP
        (fun w => w == (sk, false)) = 0 := by
      rw [List.countP_eq_zero]
      intro w hw
      obtain ⟨t, -, rfl⟩ := List.mem_map.mp hw
      simp
    rw [htombs, hzero, Nat.zero_add]
    induction plan.upserts with
    | nil => rfl
    | cons skill skills ih =>
      have hwritten : (ReconcileAction.upsert skill).writes rt = if registeredKey rt skill = ""
          then none else some (registeredKey rt skill, false) := rfl
      rw [List.map_cons, List.map_cons, List.count_cons, ← ih]
      by_cases hempty : registeredKey rt skill = ""
      · rw [if_pos hempty] at hwritten
        rw [List.filterMap_cons_none hwritten, hempty, if_neg (by simpa using hne.symm),
          Nat.add_zero]
      · rw [if_neg hempty] at hwritten
        rw [List.filterMap_cons_some hwritten, List.countP_cons]
        simp [Prod.ext_iff]

lemma liveCount_append : liveCount (candidates ++ added) sk =
    liveCount candidates sk + liveCount added sk := List.countP_append

lemma hasTombstone_append : HasTombstone (candidates ++ added) sk ↔
    HasTombstone candidates sk ∨ HasTombstone added sk := by
  simp [HasTombstone, or_and_right, exists_or]

/-- The keys of the installed skills without a live row are the keys that the plan writes. -/
def KeysRegistered (rt : GraphRuntime) (truth : List (String × TruthSkill))
    (candidates : List Candidate) : Prop :=
  ∀ e ∈ truth, HasLive candidates e.1 ∨ ∃ e' ∈ truth, e'.1 ≠ "" ∧ ¬HasLive candidates e'.1 ∧
    registeredKey rt e'.2 = e.1

/-- The plan then writes each of its keys once. -/
lemma KeysRegistered.perm (h : KeysRegistered rt truth candidates) (htruth : Keyed truth) :
    ((planSkillGraphReconcile truth candidates).upserts.map TruthSkill.skillKey).Perm
      ((planSkillGraphReconcile truth candidates).upserts.map (registeredKey rt)) := by
  refine (List.subperm_of_subset nodup_upserts fun key hkey => ?_).perm_of_length_le (by simp)
  obtain ⟨skill, hskill, rfl⟩ := List.mem_map.mp hkey
  obtain ⟨hmem, -, hlive⟩ := (mem_upserts htruth).mp hskill
  rcases h _ hmem with hhas | ⟨e, he, hne, hmissing, hregistered⟩
  · exact absurd hhas hlive
  · have hkeyed := htruth.keyed e he
    refine List.mem_map.mpr ⟨e.2, (mem_upserts htruth).mpr ?_, hregistered⟩
    rw [hkeyed]
    exact ⟨he, hne, hmissing⟩

/-- With the rows of the plan the index has converged, if the keys are registered. -/
lemma converged_of_registered (h : KeysRegistered rt truth candidates) (htruth : Keyed truth)
    (hne : ∀ c ∈ candidates, c.skillKey ≠ "") (hne' : ∀ c ∈ added, c.skillKey ≠ "")
    (hadded : Carries rt (planSkillGraphReconcile truth candidates) added) :
    Converged truth (candidates ++ added) := by
  have hperm := h.perm htruth
  have hcount : ∀ sk, sk ≠ "" → liveCount (candidates ++ added) sk = liveCount candidates sk +
      ((planSkillGraphReconcile truth candidates).upserts.map TruthSkill.skillKey).count sk := by
    intro sk hsk
    rw [liveCount_append, hadded.live sk hsk, hperm.count_eq]
  have hupsert : ∀ e ∈ truth, e.1 ≠ "" → ¬HasLive candidates e.1 → e.1 ∈
      (planSkillGraphReconcile truth candidates).upserts.map TruthSkill.skillKey := by
    intro e he hekey hlive
    have hkeyed := htruth.keyed e he
    refine List.mem_map.mpr ⟨e.2, (mem_upserts htruth).mpr ?_, hkeyed⟩
    rw [hkeyed]
    exact ⟨he, hekey, hlive⟩
  have hinstalled : ∀ e ∈ truth, HasLive (candidates ++ added) e.1 := by
    intro e he
    by_cases hlive : HasLive candidates e.1
    · obtain ⟨c, hc, hkey⟩ := hlive
      exact ⟨c, List.mem_append_left _ hc, hkey⟩
    · obtain ⟨e', he', hekey, hmissing, hregistered⟩ := (h e he).resolve_left hlive
      have hmem : e.1 ∈
          (planSkillGraphReconcile truth candidates).upserts.map (registeredKey rt) :=
        List.mem_map.mpr ⟨e'.2, (mem_upserts htruth).mpr (by
          rw [htruth.keyed e' he']
          exact ⟨he', hekey, hmissing⟩), hregistered⟩
      have hkey : e.1 ≠ "" := by
        obtain ⟨skill, hskill, hsame⟩ := List.mem_map.mp (hperm.mem_iff.mpr hmem)
        exact hsame ▸ ((mem_upserts htruth).mp hskill).2.1
      rw [hasLive_iff, hcount _ hkey]
      exact Nat.add_pos_right _ (List.count_pos_iff.mpr (hupsert e he hkey hlive))
  -- a key that needs a tombstone now needed one before
  have hsettled : ∀ sk, ¬HasTombstone (candidates ++ added) sk →
      liveCount (candidates ++ added) sk ≤ liveAllowed truth sk := by
    intro sk htomb
    rw [hasTombstone_append, not_or] at htomb
    have hbefore : liveCount candidates sk ≤ liveAllowed truth sk := by
      by_contra hmore
      exact htomb.2 ((hadded.tombstone sk).mpr
        ((exists_tombstone_iff hne).mpr ⟨htomb.1, Nat.lt_of_not_le hmore⟩))
    by_cases hsk : sk = ""
    · have hzero : liveCount (candidates ++ added) sk = 0 := by
        refine not_hasLive_iff.mp ?_
        rintro ⟨c, hc, hkey, -⟩
        rcases List.mem_append.mp hc with hc | hc
        · exact hne c hc (hkey.trans hsk)
        · exact hne' c hc (hkey.trans hsk)
      omega
    rw [hcount sk hsk]
    by_cases hmem : sk ∈
        (planSkillGraphReconcile truth candidates).upserts.map TruthSkill.skillKey
    · obtain ⟨skill, hskill, rfl⟩ := List.mem_map.mp hmem
      obtain ⟨hin, -, hlive⟩ := (mem_upserts htruth).mp hskill
      rw [not_hasLive_iff.mp hlive, List.count_eq_one_of_mem nodup_upserts hmem, liveAllowed,
        OrderedDict.get?_of_mem htruth.nodup hin]
      exact le_rfl
    · rw [List.count_eq_zero_of_not_mem hmem]
      exact hbefore
  refine ⟨hinstalled, ?_, ?_⟩
  · intro sk hnot hlive
    by_contra htomb
    have hle := hsettled sk htomb
    rw [liveAllowed, hnot] at hle
    exact absurd (hasLive_iff.mp hlive) (by simpa using hle)
  · have hkeys : ∀ c ∈ candidates ++ added, c.skillKey ≠ "" := fun c hc =>
      (List.mem_append.mp hc).elim (hne c) (hne' c)
    have htombs : (planSkillGraphReconcile truth (candidates ++ added)).tombstones = [] := by
      refine List.eq_nil_iff_forall_not_mem.mpr fun t ht => ?_
      obtain ⟨hnone, hmore⟩ := (exists_tombstone_iff hkeys).mp ⟨t, ht, rfl⟩
      exact absurd (hsettled _ hnone) (Nat.not_le_of_lt hmore)
    have hups : (planSkillGraphReconcile truth (candidates ++ added)).upserts = [] := by
      refine List.eq_nil_iff_forall_not_mem.mpr fun skill hskill => ?_
      obtain ⟨hmem, -, hlive⟩ := (mem_upserts htruth).mp hskill
      exact hlive (hinstalled _ hmem)
    exact congrArg₂ ReconcilePlan.mk htombs hups

/-- Where the index has converged, the keys were registered. -/
lemma registered_of_converged (h : Converged truth (candidates ++ added)) (htruth : Keyed truth)
    (hne' : ∀ c ∈ added, c.skillKey ≠ "")
    (hadded : Carries rt (planSkillGraphReconcile truth candidates) added) :
    KeysRegistered rt truth candidates := by
  intro e he
  by_cases hlive : HasLive candidates e.1
  · exact .inl hlive
  obtain ⟨c, hc, hkey, hdeleted⟩ := h.installed e he
  have hcadded : c ∈ added := by
    refine (List.mem_append.mp hc).resolve_left fun hold => ?_
    exact hlive ⟨c, hold, hkey, hdeleted⟩
  have hpos := hasLive_iff.mp (⟨c, hcadded, hkey, hdeleted⟩ : HasLive added e.1)
  rw [hadded.live e.1 (hkey ▸ hne' c hcadded), List.count_pos_iff] at hpos
  obtain ⟨skill, hskill, hregistered⟩ := List.mem_map.mp hpos
  obtain ⟨hmem, hekey, hmissing⟩ := (mem_upserts htruth).mp hskill
  exact .inr ⟨_, hmem, hekey, hmissing, hregistered⟩

end After

/-- After the actions of a plan the index has converged exactly when the keys of the installed
skills without a live row are the keys under which these skills are registered. -/
theorem reconcile_converges_iff (rt : GraphRuntime) (file : InstalledFile) {rows : List PyVal}
    {candidates : List Candidate} (hread : graphCandidates rt rows = .ok candidates) {next : ℤ}
    (hfresh : FreshIds rt rows next) :
    (∃ candidates', graphCandidates rt (rows ++ addedRows rt next
        (planSkillGraphReconcile (truthIndex rt file) candidates).actions) = .ok candidates' ∧
      Converged (truthIndex rt file) candidates') ↔
      KeysRegistered rt (truthIndex rt file) candidates := by
  have htruth := truthIndex_keyed rt file
  have hne : ∀ c ∈ candidates, c.skillKey ≠ "" := fun c hc => (skillKey_of_read hread c hc).1
  obtain ⟨added, hafter, hwrites⟩ := graphCandidates_append hread hfresh (clean_of_read hread)
  have hadded := carries_of_writes hwrites
  have hne' : ∀ c ∈ added, c.skillKey ≠ "" := fun c hc =>
    (skillKey_of_read hafter c (List.mem_append_right _ hc)).1
  constructor
  · rintro ⟨candidates', hread', hconverged⟩
    obtain rfl : candidates ++ added = candidates' := Except.ok.inj (hafter.symm.trans hread')
    exact registered_of_converged hconverged htruth hne' hadded
  · intro h
    exact ⟨_, hafter, converged_of_registered h htruth hne hne' hadded⟩

/-! ### On ASCII text -/

/-- A small letter is no white space. -/
lemma isSpace_toLower {c : Char} (h : isSpace c = false) : isSpace c.toLower = false := by
  unfold Char.toLower
  split
  · rename_i hupper
    have hlow : 65 ≤ c.val.toNat := UInt32.le_iff_toNat_le.mp hupper.1
    have hhigh : c.val.toNat ≤ 90 := UInt32.le_iff_toNat_le.mp hupper.2
    have hspaces : ∀ n ∈ [0x09, 0x0A, 0x0B, 0x0C, 0x0D, 0x1C, 0x1D, 0x1E, 0x1F, 0x20, 0x85, 0xA0,
        0x1680, 0x2000, 0x2001, 0x2002, 0x2003, 0x2004, 0x2005, 0x2006, 0x2007, 0x2008, 0x2009,
        0x200A, 0x2028, 0x2029, 0x202F, 0x205F, 0x3000], ¬ (97 ≤ n ∧ n ≤ 122) := by decide
    refine decide_eq_false fun hmem => hspaces _ hmem ?_
    change 97 ≤ (c.val + ('a'.val - 'A'.val)).toNat ∧ (c.val + ('a'.val - 'A'.val)).toNat ≤ 122
    have hadd : (c.val + ('a'.val - 'A'.val)).toNat = c.val.toNat + 32 := by
      rw [UInt32.toNat_add, show ('a'.val - 'A'.val).toNat = 32 from by decide]
      omega
    omega
  · exact h

/-- Lowering ASCII letters makes no white space. -/
lemma strip_lower_ascii {s : String} (h : strip s = s) :
    strip (PyRuntime.ascii.lower s) = PyRuntime.ascii.lower s := by
  have hlist : (PyRuntime.ascii.lower s).toList = s.toList.map Char.toLower := String.toList_ofList
  refine strip_eq_self ?_ ?_
  · intro c hc
    rw [hlist, List.head?_map] at hc
    obtain ⟨d, hd, rfl⟩ := Option.map_eq_some_iff.mp (Option.mem_def.mp hc)
    exact isSpace_toLower (head_of_strip h d hd)
  · intro c hc
    rw [hlist, List.getLast?_map] at hc
    obtain ⟨d, hd, rfl⟩ := Option.map_eq_some_iff.mp (Option.mem_def.mp hc)
    exact isSpace_toLower (last_of_strip h d hd)

/-- The skill server on ASCII text. -/
def asciiGraph : GraphRuntime where
  toPyRuntime := .ascii
  loads := jsonLoads
  dumps := jsonDumps
  skillKeyMode := "name"
  utcnow := "2026-01-02T03:04:05"
  localtime := "2026-01-02T04:04:05"
  loads_dumps _ hnodup hflat := jsonLoads_jsonDumps hnodup hflat
  dumps_ne_empty := jsonDumps_ne_empty
  strip_lower _ h := strip_lower_ascii h

/-- One skill that is installed under its own name. -/
def webSearchFile : InstalledFile := .legacy [("Web-Search", ⟨"", "Finds pages", []⟩)]

theorem reconcile_converges_iff_webSearch :
    ∃ candidates', graphCandidates asciiGraph ([] ++ addedRows asciiGraph 1
        (planSkillGraphReconcile (truthIndex asciiGraph webSearchFile) []).actions) =
          .ok candidates' ∧
      Converged (truthIndex asciiGraph webSearchFile) candidates' := by
  have hkeys : ∀ e ∈ truthIndex asciiGraph webSearchFile,
      e.1 ≠ "" ∧ registeredKey asciiGraph e.2 = e.1 := by decide +kernel
  have hfresh : FreshIds asciiGraph [] 1 :=
    ⟨by decide, fun row hrow => absurd hrow List.not_mem_nil⟩
  refine (reconcile_converges_iff asciiGraph webSearchFile rfl hfresh).mpr fun e he => ?_
  exact .inr ⟨e, he, (hkeys e he).1, fun ⟨c, hc, _⟩ => absurd hc List.not_mem_nil, (hkeys e he).2⟩

end Trion.Skills
