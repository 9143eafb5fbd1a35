import Trion.Commander.ApprovalRuns

/-!
# Every approval is in one place

Within one process whose file is written and read in order, an approval is put in the table once.
From then on it is in one place: it waits in the table, one call holds it, or it is in the history
once, with the status of the call that resolved it.  It never leaves the history again.
-/

namespace Trion.Commander

open OrderedDict OperationRun ApprovalStore ApprovalEvent

variable {R : Type}

/-! ### Places -/

/-- How often an object is in the history and held by calls. -/
structure Counts where
  history : ℕ := 0
  approved : ℕ := 0
  starting : ℕ := 0
  rejected : ℕ := 0

def ApprovalStore.counts (s : ApprovalStore R) (ref : ℕ) : Counts :=
  ⟨s.history.count ref, s.approved.count ref, s.starting.count ref, s.rejected.count ref⟩

/-- The places of an object: what the table holds under its id, how often it is counted, and its
status. -/
inductive Place (ref : ℕ) : Option ℕ → Counts → ApprovalStatus → Prop
  | pending : Place ref (some ref) {} .pending
  | lapsed : Place ref (some ref) {} .expired
  | approved : Place ref (some ref) { approved := 1 } .approved
  | starting : Place ref (some ref) { starting := 1 } .approved
  | rejected : Place ref (some ref) { rejected := 1 } .rejected
  | settled {status : ApprovalStatus} (h : status ≠ .pending) :
      Place ref none { history := 1 } status

lemma Place.eq_of_some {ref r : ℕ} {counts : Counts} {status : ApprovalStatus}
    (h : Place ref (some r) counts status) : r = ref := by
  generalize hentry : some r = entry at h
  cases h with
  | settled _ => cases hentry
  | _ => exact Option.some.inj hentry

lemma Place.of_pending {ref : ℕ} {entry : Option ℕ} {counts : Counts}
    (h : Place ref entry counts .pending) : entry = some ref ∧ counts = {} := by
  generalize hstatus : ApprovalStatus.pending = status at h
  cases h with
  | pending => exact ⟨rfl, rfl⟩
  | settled hne => exact absurd hstatus.symm hne
  | _ => cases hstatus

lemma Place.of_expired {ref r : ℕ} {counts : Counts} (h : Place ref (some r) counts .expired) :
    counts = {} := by
  cases h
  rfl

lemma Place.of_approved {ref : ℕ} {entry : Option ℕ} {counts : Counts} {status : ApprovalStatus}
    (h : Place ref entry counts status) (hcall : counts.approved ≠ 0) :
    entry = some ref ∧ counts = { approved := 1 } ∧ status = .approved := by
  cases h with
  | approved => exact ⟨rfl, rfl, rfl⟩
  | _ => exact absurd rfl hcall

lemma Place.of_starting {ref : ℕ} {entry : Option ℕ} {counts : Counts} {status : ApprovalStatus}
    (h : Place ref entry counts status) (hcall : counts.starting ≠ 0) :
    entry = some ref ∧ counts = { starting := 1 } ∧ status = .approved := by
  cases h with
  | starting => exact ⟨rfl, rfl, rfl⟩
  | _ => exact absurd rfl hcall

lemma Place.of_rejected {ref : ℕ} {entry : Option ℕ} {counts : Counts} {status : ApprovalStatus}
    (h : Place ref entry counts status) (hcall : counts.rejected ≠ 0) :
    entry = some ref ∧ counts = { rejected := 1 } ∧ status = .rejected := by
  cases h with
  | rejected => exact ⟨rfl, rfl, rfl⟩
  | _ => exact absurd rfl hcall

/-- What has given an approval its status. -/
def Fate (log : List (ApprovalEvent R)) (a : PendingApproval R) : Prop :=
  (∃ time, .resolved a.id a.status time ∈ log) ∨
    (a.status = .rejected ∧ .startFailed a.id ∈ log ∧ ∃ time, .resolved a.id .approved time ∈ log)

lemma Fate.mono {log log' : List (ApprovalEvent R)} {a : PendingApproval R} (h : Fate log a)
    (hsub : log ⊆ log') : Fate log' a := by
  rcases h with ⟨time, h⟩ | ⟨hstatus, hfailed, time, h⟩
  · exact .inl ⟨time, hsub h⟩
  · exact .inr ⟨hstatus, hsub hfailed, time, hsub h⟩

/-- Every approval is in its place. -/
structure InPlace (s : ApprovalStore R) : Prop where
  keys : (keys s.pending).Nodup
  ids : (s.objects.map PendingApproval.id).Nodup
  table : ∀ id ref, get? s.pending id = some ref → ∃ a, s.objects[ref]? = some a ∧ a.id = id
  place : ∀ ref a, s.objects[ref]? = some a →
    Place ref (get? s.pending a.id) (s.counts ref) a.status
  bounded : ∀ ref, s.objects.length ≤ ref → s.counts ref = {}
  added : ∀ id, s.log.countP (isAdded id) = (s.objects.map PendingApproval.id).count id
  fate : ∀ a ∈ s.objects, a.status ≠ .pending → Fate s.log a

/-- The pending rows of the file are in the table. -/
def Filed (s : ApprovalStore R) : Prop :=
  ∀ file ∈ s.file, ∀ row ∈ file.pending, row.status = .pending → has s.pending row.id = true

namespace InPlace

variable {s t : ApprovalStore R} {id : String} {ref : ℕ} {a : PendingApproval R} {now : Moment}

lemma empty : InPlace ({} : ApprovalStore R) where
  keys := .nil
  ids := .nil
  table _ _ h := absurd h (Option.some_ne_none _).symm
  place _ _ h := absurd h (Option.some_ne_none _).symm
  bounded _ _ := rfl
  added _ := rfl
  fate _ h := absurd h List.not_mem_nil

/-- Different objects have different ids. -/
lemma id_ne (h : InPlace s) {r : ℕ} {b : PendingApproval R} (ha : s.objects[ref]? = some a)
    (hb : s.objects[r]? = some b) (hne : r ≠ ref) : b.id ≠ a.id := by
  intro hid
  have hlt : r < (s.objects.map PendingApproval.id).length := by
    rw [List.length_map]
    exact (List.getElem?_eq_some_iff.mp hb).1
  refine hne ((List.getElem?_inj hlt h.ids).mp ?_)
  rw [List.getElem?_map, List.getElem?_map, ha, hb, Option.map_some, Option.map_some, hid]

/-- One approval goes from one place to another one, and all others stay where they are. -/
lemma update {f : PendingApproval R → PendingApproval R} (h : InPlace s)
    (ha : s.objects[ref]? = some a) (hf : KeepsOffer f)
    (hobjects : t.objects = s.objects.modify ref f) (hkeys : (OrderedDict.keys t.pending).Nodup)
    (htable : ∀ id ≠ a.id, get? t.pending id = get? s.pending id)
    (hcounts : ∀ r ≠ ref, t.counts r = s.counts r)
    (hplace : Place ref (get? t.pending a.id) (t.counts ref) (f a).status)
    (hadded : ∀ id, t.log.countP (isAdded id) = s.log.countP (isAdded id))
    (hsub : s.log ⊆ t.log) (hfate : (f a).status ≠ .pending → Fate t.log (f a)) : InPlace t := by
  have hids : t.objects.map PendingApproval.id = s.objects.map PendingApproval.id := by
    refine List.ext_getElem? fun r => ?_
    rw [List.getElem?_map, List.getElem?_map, hobjects]
    exact map_id_modify hf ref r
  have hget : t.objects[ref]? = some (f a) := by
    rw [hobjects, List.getElem?_modify_eq, ha]
    rfl
  have hothers : ∀ r ≠ ref, t.objects[r]? = s.objects[r]? := by
    intro r hne
    rw [hobjects, List.getElem?_modify_ne _ _ hne.symm]
  constructor
  case keys => exact hkeys
  case ids => rw [hids]; exact h.ids
  case table =>
    intro id r hr
    by_cases hid : id = a.id
    · subst hid
      rw [hr] at hplace
      obtain rfl : r = ref := hplace.eq_of_some
      exact ⟨f a, hget, hf.id a⟩
    · obtain ⟨b, hb, rfl⟩ := h.table id r (htable id hid ▸ hr)
      refine ⟨b, (hothers r ?_).trans hb, rfl⟩
      rintro rfl
      exact hid (congrArg PendingApproval.id (Option.some.inj (hb.symm.trans ha)))
  case place =>
    intro r b hb
    by_cases hr : r = ref
    · subst hr
      obtain rfl := Option.some.inj (hget.symm.trans hb)
      rwa [hf.id]
    · have hb' := (hothers r hr).symm.trans hb
      rw [htable b.id (h.id_ne ha hb' hr), hcounts r hr]
      exact h.place r b hb'
  case bounded =>
    intro r hr
    rw [hobjects, List.length_modify] at hr
    rw [hcounts r (by
      rintro rfl
      exact absurd (List.getElem?_eq_some_iff.mp ha).1 (not_lt.mpr hr))]
    exact h.bounded r hr
  case added => exact fun id => by rw [hadded, hids, h.added]
  case fate =>
    intro b hb hstatus
    obtain ⟨r, hr⟩ := List.mem_iff_getElem?.mp hb
    by_cases heq : r = ref
    · subst heq
      obtain rfl := Option.some.inj (hget.symm.trans hr)
      exact hfate hstatus
    · exact (h.fate b (List.mem_of_getElem? ((hothers r heq).symm.trans hr)) hstatus).mono hsub

/-- Saving moves no approval. -/
lemma save (h : InPlace s) {saves : Bool} : InPlace (s.save saves) := by
  unfold ApprovalStore.save
  split
  · exact ⟨h.keys, h.ids, h.table, h.place, h.bounded, h.added, h.fate⟩
  · exact h

/-! ### Parts of the sections -/

lemma stamp (h : InPlace s) (ha : s.objects[ref]? = some a) {resolvedBy : String} :
    InPlace (s.stamp ref now resolvedBy) :=
  h.update ha (keepsOffer_stamp now resolvedBy) rfl h.keys (fun _ _ => rfl) (fun _ _ => rfl)
    (h.place ref a ha) (fun _ => rfl) (List.Subset.refl _)
    (h.fate a (List.mem_of_getElem? ha))

/-- A new approval waits in the table. -/
lemma add (h : InPlace s) (hpending : a.status = .pending)
    (hfresh : ∀ b ∈ s.objects, b.id ≠ a.id) : InPlace (s.add a) := by
  have hnot : a.id ∉ s.objects.map PendingApproval.id := by
    intro hmem
    obtain ⟨b, hb, hid⟩ := List.mem_map.mp hmem
    exact hfresh b hb hid
  have hold : ∀ {r : ℕ} {b : PendingApproval R}, s.objects[r]? = some b →
      (s.add a).objects[r]? = some b := by
    intro r b hb
    exact (List.getElem?_append_left (List.getElem?_eq_some_iff.mp hb).1).trans hb
  constructor
  case keys => exact nodup_keys_insert h.keys
  case ids =>
    change ((s.objects ++ [a]).map PendingApproval.id).Nodup
    rw [List.map_append, List.map_singleton]
    exact List.nodup_append.mpr ⟨h.ids, List.nodup_singleton _, fun x hx y hy hxy =>
      hnot (by rwa [← List.mem_singleton.mp hy, ← hxy])⟩
  case table =>
    intro id r hr
    change get? (OrderedDict.insert s.pending a.id s.objects.length) id = some r at hr
    rw [get?_insert] at hr
    split at hr
    · rename_i hid
      obtain rfl := Option.some.inj hr
      refine ⟨a, ?_, hid.symm⟩
      change (s.objects ++ [a])[s.objects.length]? = some a
      rw [List.getElem?_concat_length]
    · obtain ⟨b, hb, hid⟩ := h.table id r hr
      exact ⟨b, hold hb, hid⟩
  case place =>
    intro r b hb
    change Place r (get? (OrderedDict.insert s.pending a.id s.objects.length) b.id) (s.counts r) _
    rcases Nat.lt_trichotomy r s.objects.length with hlt | rfl | hgt
    · have hb' : s.objects[r]? = some b := (List.getElem?_append_left hlt).symm.trans hb
      rw [get?_insert_of_ne (hfresh b (List.mem_of_getElem? hb'))]
      exact h.place r b hb'
    · change (s.objects ++ [a])[s.objects.length]? = some b at hb
      rw [List.getElem?_concat_length] at hb
      obtain rfl := Option.some.inj hb
      rw [get?_insert_self, h.bounded _ le_rfl, hpending]
      exact .pending
    · have hlen : (s.objects ++ [a]).length ≤ r := by
        rw [List.length_append, List.length_singleton]
        exact hgt
      exact absurd hb (by
        change (s.objects ++ [a])[r]? ≠ some b
        rw [List.getElem?_eq_none hlen]
        exact (Option.some_ne_none b).symm)
  case bounded =>
    intro r hr
    refine h.bounded r (le_trans ?_ hr)
    exact (List.sublist_append_left _ _).length_le
  case added =>
    intro id
    change (s.log ++ [ApprovalEvent.added a.id a.request a.expiresAt]).countP (isAdded id) =
      ((s.objects ++ [a]).map PendingApproval.id).count id
    rw [List.countP_append, List.map_append, List.count_append, h.added, List.map_singleton,
      List.countP_singleton, List.count_singleton]
    simp only [isAdded, decide_eq_true_eq, beq_iff_eq]
  case fate =>
    intro b hb hstatus
    rcases List.mem_append.mp hb with hb | hb
    · exact (h.fate b hb hstatus).mono (List.subset_append_left _ _)
    · obtain rfl := List.mem_singleton.mp hb
      exact absurd hpending hstatus

/-! ### Status changes -/

lemma countP_setStatus {status : ApprovalStatus} (id : String) :
    (s.setStatus ref status now).log.countP (isAdded id) = s.log.countP (isAdded id) := by
  unfold ApprovalStore.setStatus
  dsimp only
  rw [List.countP_append]
  split
  · split <;> rfl
  · rfl

lemma log_setStatus_subset {status : ApprovalStatus} :
    s.log ⊆ (s.setStatus ref status now).log :=
  List.subset_append_left _ _

/-- A pending approval has its new status from this change. -/
lemma fate_setStatus {status : ApprovalStatus} (ha : s.objects[ref]? = some a)
    (hpending : a.status = .pending) :
    Fate (s.setStatus ref status now).log { a with status } := by
  rw [Balanced.log_setStatus now status ha hpending]
  exact .inl ⟨now.time, List.mem_append_right _ List.mem_cons_self⟩

lemma modify_same (objects : List (PendingApproval R)) (ref : ℕ) :
    (objects.modify ref fun a => a) = objects :=
  List.modify_id ref objects

/-- An approval that no call holds goes from the table to the history. -/
lemma retire (h : InPlace s) (ha : s.objects[ref]? = some a) (hid : a.id = id)
    (hcounts : s.counts ref = {}) (hstatus : a.status ≠ .pending) : InPlace (s.retire id ref) := by
  subst hid
  refine h.update (f := fun a => a) ha ⟨fun _ => rfl, fun _ => rfl, fun _ => rfl⟩
    (modify_same s.objects ref).symm (nodup_keys_erase h.keys) (fun id hid => ?_)
    (fun r hr => ?_) ?_ (fun _ => rfl) (List.Subset.refl _) (h.fate a (List.mem_of_getElem? ha))
  · exact (get?_erase _ _ _).trans (if_neg hid)
  · unfold counts ApprovalStore.retire
    rw [List.count_append, List.count_singleton, if_neg (by simpa using hr.symm), Nat.add_zero]
  · have hself : get? (erase s.pending a.id) a.id = none := (get?_erase _ _ _).trans (if_pos rfl)
    obtain ⟨hhistory, happroved, hstarting, hrejected⟩ := Counts.mk.inj hcounts
    unfold counts ApprovalStore.retire
    rw [hself, List.count_append, List.count_singleton_self, hhistory, happroved, hstarting,
      hrejected]
    exact .settled hstatus

/-- An approval that waits in the table runs out and goes to the history. -/
lemma expire (h : InPlace s) (ha : s.objects[ref]? = some a) (hid : get? s.pending a.id = some ref)
    (hstatus : a.status = .pending ∨ a.status = .expired) : InPlace (s.expire a.id ref now) := by
  have hplace := h.place ref a ha
  rw [hid] at hplace
  have hcounts : s.counts ref = {} := by
    rcases hstatus with hstatus | hstatus
    · exact (hstatus ▸ hplace).of_pending.2
    · exact (hstatus ▸ hplace).of_expired
  have hset : InPlace (s.setStatus ref .expired now) := by
    refine h.update ha (keepsOffer_status .expired) rfl h.keys (fun _ _ => rfl) (fun _ _ => rfl) ?_
      countP_setStatus log_setStatus_subset fun _ => ?_
    · change Place ref (get? s.pending a.id) (s.counts ref) .expired
      rw [hid, hcounts]
      exact .lapsed
    · rcases hstatus with hstatus | hstatus
      · exact fate_setStatus ha hstatus
      · have hsame : ({ a with status := .expired } : PendingApproval R) = a := by rw [← hstatus]
        change Fate _ { a with status := .expired }
        rw [hsame]
        exact (h.fate a (List.mem_of_getElem? ha) (hstatus ▸ by decide)).mono log_setStatus_subset
  have hobject : (s.setStatus ref .expired now).objects[ref]? =
      some { a with status := .expired } := by
    rw [ApprovalStore.setStatus, List.getElem?_modify_eq, ha]
    rfl
  have hstamped : ((s.setStatus ref .expired now).stamp ref now "system_ttl").objects[ref]? =
      some { a with
        status := .expired, resolvedAt := some now.isoformat
        resolvedBy := some "system_ttl" } := by
    rw [ApprovalStore.stamp, List.getElem?_modify_eq, hobject]
    rfl
  exact (hset.stamp hobject).retire hstamped rfl hcounts (fun hpending => by cases hpending)

/-- A pending approval is marked by a call, which holds it from then on. -/
lemma mark {status : ApprovalStatus} {approved rejected : List ℕ} {resolvedBy : String}
    (h : InPlace s) (ha : s.objects[ref]? = some a) (hpending : a.status = .pending)
    (hothers : ∀ r ≠ ref, approved.count r = s.approved.count r ∧
      rejected.count r = s.rejected.count r)
    (hplace : Place ref (some ref)
      { approved := approved.count ref, rejected := rejected.count ref } status) :
    InPlace { (s.setStatus ref status now).stamp ref now resolvedBy with approved, rejected } := by
  obtain ⟨hid, hcounts⟩ := (hpending ▸ h.place ref a ha).of_pending
  obtain ⟨hhistory, -, hstarting, -⟩ := Counts.mk.inj hcounts
  have hset : InPlace { s.setStatus ref status now with approved, rejected } := by
    refine h.update (t := { s.setStatus ref status now with approved, rejected }) ha
      (keepsOffer_status status) rfl h.keys (fun _ _ => rfl) (fun r hr => ?_) ?_ countP_setStatus
      log_setStatus_subset fun _ => fate_setStatus ha hpending
    · obtain ⟨happroved, hrejected⟩ := hothers r hr
      change Counts.mk _ (approved.count r) _ (rejected.count r) = _
      rw [happroved, hrejected]
      rfl
    · change Place ref (get? s.pending a.id)
        ⟨s.history.count ref, approved.count ref, s.starting.count ref, rejected.count ref⟩ status
      rw [hid, hhistory, hstarting]
      exact hplace
  have hobject : ({ s.setStatus ref status now with approved, rejected } :
      ApprovalStore R).objects[ref]? = some { a with status } := by
    change (s.objects.modify ref _)[ref]? = _
    rw [List.getElem?_modify_eq, ha]
    rfl
  exact hset.stamp (s := { s.setStatus ref status now with approved, rejected }) hobject

/-- A call that holds an approval lets it go to the history, with the status it has or with
another one. -/
lemma finish (h : InPlace s) (f : PendingApproval R → PendingApproval R)
    (starting rejected : List ℕ) (log : List (ApprovalEvent R)) (ha : s.objects[ref]? = some a)
    (hf : KeepsOffer f) (hhistory : s.history.count ref = 0) (happroved : s.approved.count ref = 0)
    (hstarting : starting.count ref = 0) (hrejected : rejected.count ref = 0)
    (hothers : ∀ r ≠ ref, starting.count r = s.starting.count r ∧
      rejected.count r = s.rejected.count r)
    (hadded : ∀ id, log.countP (isAdded id) = s.log.countP (isAdded id)) (hsub : s.log ⊆ log)
    (hstatus : (f a).status ≠ .pending) (hfate : Fate log (f a)) :
    InPlace
      ({ s with objects := s.objects.modify ref f, starting, rejected, log }.retire a.id ref) := by
  refine h.update
    (t := { s with objects := s.objects.modify ref f, starting, rejected, log }.retire a.id ref) ha
    hf rfl (nodup_keys_erase h.keys) (fun id hid => ?_) (fun r hr => ?_) ?_ hadded hsub
    fun _ => hfate
  · exact (get?_erase _ _ _).trans (if_neg hid)
  · obtain ⟨hs, hr'⟩ := hothers r hr
    unfold counts ApprovalStore.retire
    dsimp only
    rw [List.count_append, List.count_singleton, if_neg (by simpa using hr.symm), Nat.add_zero, hs,
      hr']
  · have hself : get? (erase s.pending a.id) a.id = none := (get?_erase _ _ _).trans (if_pos rfl)
    unfold counts ApprovalStore.retire
    dsimp only
    rw [hself, List.count_append, List.count_singleton_self, hhistory, happroved, hstarting,
      hrejected]
    exact .settled hstatus

/-! ### Sections -/

/-- Approvals of different ids run out one after the other. -/
lemma expireAll {expired : List (String × ℕ)} (h : InPlace s)
    (hnodup : (OrderedDict.keys expired).Nodup)
    (hwaits : ∀ e ∈ expired, get? s.pending e.1 = some e.2 ∧
      ∃ a, s.objects[e.2]? = some a ∧ a.status = .pending) :
    InPlace (expired.foldl (fun s e => s.expire e.1 e.2 now) s) := by
  induction expired generalizing s with
  | nil => exact h
  | cons e expired ih =>
    obtain ⟨hget, a, ha, hpending⟩ := hwaits e List.mem_cons_self
    obtain ⟨b, hb, hid⟩ := h.table e.1 e.2 hget
    obtain rfl := Option.some.inj (ha.symm.trans hb)
    obtain ⟨hnot, hrest⟩ := List.nodup_cons.mp hnodup
    have hexpired : InPlace (s.expire e.1 e.2 now) := by
      rw [← hid] at hget ⊢
      exact h.expire ha hget (.inl hpending)
    refine ih hexpired hrest fun e' he' => ?_
    obtain ⟨hget', a', ha', hpending'⟩ := hwaits e' (List.mem_cons_of_mem e he')
    have hkey : e'.1 ≠ e.1 := fun heq => hnot (heq ▸ List.mem_map_of_mem he')
    have hne : e.2 ≠ e'.2 := by
      intro heq
      obtain ⟨b', hb', hid'⟩ := h.table e'.1 e'.2 hget'
      rw [← heq, ha] at hb'
      exact hkey (hid' ▸ hid ▸ congrArg PendingApproval.id (Option.some.inj hb').symm)
    refine ⟨(get?_erase _ _ _).trans ((if_neg hkey).trans hget'), a', ?_, hpending'⟩
    exact (List.getElem?_modify_ne _ _ hne).trans ((List.getElem?_modify_ne _ _ hne).trans ha')

lemma cleanupExpired (h : InPlace s) {saves : Bool} : InPlace (s.cleanupExpired now saves) := by
  unfold ApprovalStore.cleanupExpired
  dsimp only
  split
  · exact h
  · refine save (h.expireAll (h.keys.sublist (List.filter_sublist.map Prod.fst)) fun e he => ?_)
    obtain ⟨hmem, hlate⟩ := List.mem_filter.mp he
    have hget := get?_of_mem h.keys hmem
    obtain ⟨a, ha, -⟩ := h.table e.1 e.2 hget
    rw [ha, Option.any_some, Bool.and_eq_true, decide_eq_true_eq] at hlate
    exact ⟨hget, a, ha, hlate.1⟩

lemma approve {approvedBy : String} {saves : Bool} (h : InPlace s)
    (horderly : ∀ e ∈ s.find? id, e.2.isExpired now = true →
      e.2.status = .pending ∨ e.2.status = .expired) :
    InPlace (approve s now saves id approvedBy).1 := by
  unfold Commander.approve
  split
  · exact h
  · rename_i r a hfind
    obtain ⟨hget, ha⟩ := Balanced.of_find? hfind
    obtain ⟨b, hb, hid⟩ := h.table id r hget
    obtain rfl := Option.some.inj (ha.symm.trans hb)
    split
    · rename_i hlate
      subst hid
      exact (h.expire ha hget (horderly (r, a) hfind hlate)).save
    · split
      · exact h
      · rename_i hpending
        have hpending := not_not.mp hpending
        obtain ⟨-, hcounts⟩ := (hpending ▸ h.place r a ha).of_pending
        obtain ⟨-, happroved, -, hrejected⟩ := Counts.mk.inj hcounts
        refine h.mark ha hpending (fun r' hr' => ⟨?_, rfl⟩) ?_
        · rw [List.count_append, List.count_singleton, if_neg (by simpa using hr'.symm),
            Nat.add_zero]
          rfl
        · rw [List.count_append, List.count_singleton_self]
          change Place r (some r) ⟨0, s.approved.count r + 1, 0, s.rejected.count r⟩ .approved
          rw [happroved, hrejected]
          exact .approved

lemma startContainer (h : InPlace s) : InPlace (startContainer s ref).1 := by
  unfold Commander.startContainer
  split
  · rename_i a ha
    split
    · rename_i href
      have hcall : (s.counts ref).approved ≠ 0 :=
        Nat.pos_iff_ne_zero.mp (List.count_pos_iff.mpr href)
      obtain ⟨hid, hcounts, hstatus⟩ := (h.place ref a ha).of_approved hcall
      obtain ⟨hhistory, happroved, hstarting, hrejected⟩ := Counts.mk.inj hcounts
      refine h.update (f := fun a => a) ha ⟨fun _ => rfl, fun _ => rfl, fun _ => rfl⟩
        (modify_same s.objects ref).symm h.keys (fun _ _ => rfl) (fun r hr => ?_) ?_ (fun id => ?_)
        (List.subset_append_left _ _)
        fun hne => (h.fate a (List.mem_of_getElem? ha) hne).mono (List.subset_append_left _ _)
      · change Counts.mk _ ((s.approved.erase ref).count r) ((s.starting ++ [ref]).count r) _ = _
        rw [List.count_erase_of_ne hr, List.count_append, List.count_singleton,
          if_neg (by simpa using hr.symm), Nat.add_zero]
        rfl
      · change Place ref (get? s.pending a.id)
          ⟨s.history.count ref, (s.approved.erase ref).count ref, (s.starting ++ [ref]).count ref,
            s.rejected.count ref⟩ a.status
        rw [hid, hhistory, hrejected, List.count_erase_self, happroved, List.count_append,
          List.count_singleton_self, hstarting, hstatus]
        exact .starting
      · exact (List.countP_append).trans (Nat.add_zero _)
    · exact h
  · exact h

lemma finishApprove {saves ok : Bool} (h : InPlace s) :
    InPlace (finishApprove s now saves ref ok).1 := by
  unfold Commander.finishApprove
  split
  · rename_i a ha
    split
    · rename_i href
      have hcall : (s.counts ref).starting ≠ 0 :=
        Nat.pos_iff_ne_zero.mp (List.count_pos_iff.mpr href)
      obtain ⟨-, hcounts, hstatus⟩ := (h.place ref a ha).of_starting hcall
      obtain ⟨hhistory, happroved, hstarting, hrejected⟩ := Counts.mk.inj hcounts
      have hfate := h.fate a (List.mem_of_getElem? ha) (hstatus ▸ by decide)
      have herase : (s.starting.erase ref).count ref = 0 := by
        rw [List.count_erase_self, hstarting]
      have hothers : ∀ r ≠ ref, (s.starting.erase ref).count r = s.starting.count r ∧
          s.rejected.count r = s.rejected.count r :=
        fun r hr => ⟨List.count_erase_of_ne hr, rfl⟩
      dsimp only
      split
      · refine save ?_
        have hdone := h.finish (fun a => a) (s.starting.erase ref) s.rejected s.log ha
          ⟨fun _ => rfl, fun _ => rfl, fun _ => rfl⟩ hhistory happroved herase hrejected
          hothers (fun _ => rfl) (List.Subset.refl s.log)
          (hstatus ▸ by decide) hfate
        rwa [modify_same] at hdone
      · refine save ?_
        obtain ⟨time, happrovedAt⟩ : ∃ time, .resolved a.id .approved time ∈ s.log := by
          rcases hfate with ⟨time, hmem⟩ | ⟨hrejectedStatus, -⟩
          · exact ⟨time, hstatus ▸ hmem⟩
          · rw [hstatus] at hrejectedStatus
            cases hrejectedStatus
        set ended : ApprovalStore R := { s with starting := s.starting.erase ref }
        have hsub : s.log ⊆ (ended.setStatus ref .rejected now).log ++
            [ApprovalEvent.startFailed a.id] :=
          List.subset_append_of_subset_left _ (log_setStatus_subset (s := ended))
        have hdone := h.finish
          (fun b => { b with
            status := .rejected, resolvedAt := some now.isoformat,
            resolvedBy := some "system_start_failed" })
          (s.starting.erase ref) s.rejected
          ((ended.setStatus ref .rejected now).log ++ [ApprovalEvent.startFailed a.id]) ha
          ⟨fun _ => rfl, fun _ => rfl, fun _ => rfl⟩ hhistory happroved herase hrejected hothers
          (fun id => (List.countP_append).trans (countP_setStatus (s := ended) id)) hsub
          (fun hpending => by cases hpending)
          (.inr ⟨rfl, List.mem_append_right _ List.mem_cons_self, time, hsub happrovedAt⟩)
        have hobjects : (s.objects.modify ref fun b => { b with status := .rejected }).modify ref
              (fun b => { b with
                resolvedAt := some now.isoformat, resolvedBy := some "system_start_failed" }) =
            s.objects.modify ref fun b => { b with
              status := .rejected, resolvedAt := some now.isoformat,
              resolvedBy := some "system_start_failed" } :=
          List.modify_modify_eq _ _ ref s.objects
        rwa [← hobjects] at hdone
    · exact h
  · exact h

lemma reject {rejectedBy : String} (h : InPlace s) : InPlace (reject s now id rejectedBy).1 := by
  unfold Commander.reject
  split
  · exact h
  · rename_i r a hfind
    obtain ⟨hget, ha⟩ := Balanced.of_find? hfind
    split
    · exact h
    · rename_i hpending
      have hpending := not_not.mp hpending
      obtain ⟨-, hcounts⟩ := (hpending ▸ h.place r a ha).of_pending
      obtain ⟨-, happroved, -, hrejected⟩ := Counts.mk.inj hcounts
      refine h.mark ha hpending (fun r' hr' => ⟨rfl, ?_⟩) ?_
      · rw [List.count_append, List.count_singleton, if_neg (by simpa using hr'.symm),
          Nat.add_zero]
        rfl
      · rw [List.count_append, List.count_singleton_self]
        change Place r (some r) ⟨0, s.approved.count r, 0, s.rejected.count r + 1⟩ .rejected
        rw [happroved, hrejected]
        exact .rejected

lemma finishReject {saves : Bool} (h : InPlace s) : InPlace (finishReject s saves ref).1 := by
  unfold Commander.finishReject
  split
  · rename_i a ha
    split
    · rename_i href
      have hcall : (s.counts ref).rejected ≠ 0 :=
        Nat.pos_iff_ne_zero.mp (List.count_pos_iff.mpr href)
      obtain ⟨-, hcounts, hstatus⟩ := (h.place ref a ha).of_rejected hcall
      obtain ⟨hhistory, happroved, hstarting, hrejected⟩ := Counts.mk.inj hcounts
      refine save ?_
      have hdone := h.finish (fun a => a) s.starting (s.rejected.erase ref) s.log ha
        ⟨fun _ => rfl, fun _ => rfl, fun _ => rfl⟩
        hhistory happroved hstarting (by rw [List.count_erase_self, hrejected])
        (fun r hr => ⟨rfl, List.count_erase_of_ne hr⟩) (fun _ => rfl) (List.Subset.refl s.log)
        (hstatus ▸ by decide) (h.fate a (List.mem_of_getElem? ha) (hstatus ▸ by decide))
      rwa [modify_same] at hdone
    · exact h
  · exact h

lemma getApproval (h : InPlace s) : InPlace (getApproval s now id).1 := by
  unfold Commander.getApproval
  split
  · exact h
  · rename_i r a hfind
    obtain ⟨hget, ha⟩ := Balanced.of_find? hfind
    dsimp only
    split
    · rename_i hlate
      obtain ⟨hid, hcounts⟩ := (hlate.2 ▸ h.place r a ha).of_pending
      refine h.update ha (keepsOffer_status .expired) rfl h.keys (fun _ _ => rfl)
        (fun _ _ => rfl) ?_ countP_setStatus log_setStatus_subset fun _ => fate_setStatus ha hlate.2
      change Place r (get? s.pending a.id) (s.counts r) .expired
      rw [hid, hcounts]
      exact .lapsed
    · exact h

end InPlace

/-! ### Orderly runs -/

/-- What an orderly section is: the file can be written, what is read is what has been written
last, a new approval has a new id, and no approval that a call holds is approved again after its
time. -/
def Orderly (s : ApprovalStore R) (call : ApprovalCall R) : Prop :=
  call.saves = true ∧
    match call.action with
    | .load _ => False
    | .sync file => ∀ f ∈ file, ∃ saved ∈ s.file, ∀ row ∈ f.pending,
        ∃ a ∈ saved.pending, a.id = row.id ∧ a.status = row.status
    | .request id _ => ∀ a ∈ s.objects, a.id ≠ id
    | .approve id _ => ∀ e ∈ s.find? id, e.2.isExpired call.now = true →
        e.2.status = .pending ∨ e.2.status = .expired
    | _ => True

instance (s : ApprovalStore R) : DecidablePred (Orderly s) := fun ⟨now, saves, action⟩ => by
  unfold Orderly
  cases action <;> dsimp only <;> infer_instance

section Orderly

variable {s : ApprovalStore R} {call : ApprovalCall R} {ttl : ℤ}

/-- Running out leaves the ids as they are. -/
lemma ids_cleanupExpired (now : Moment) (saves : Bool) :
    (s.cleanupExpired now saves).objects.map PendingApproval.id =
      s.objects.map PendingApproval.id := by
  have hexpire : ∀ (t : ApprovalStore R) (e : String × ℕ),
      (t.expire e.1 e.2 now).objects.map PendingApproval.id = t.objects.map PendingApproval.id := by
    intro t e
    refine List.ext_getElem? fun r => ?_
    rw [List.getElem?_map, List.getElem?_map]
    exact (map_id_modify (keepsOffer_stamp now "system_ttl") e.2 r).trans
      (map_id_modify (keepsOffer_status .expired) e.2 r)
  unfold ApprovalStore.cleanupExpired
  dsimp only
  split
  · rfl
  · unfold ApprovalStore.save
    generalize s.pending.filter _ = expired
    have hall : (expired.foldl (fun s e => s.expire e.1 e.2 now) s).objects.map PendingApproval.id =
        s.objects.map PendingApproval.id :=
      List.foldlRecOn (motive := fun t : ApprovalStore R =>
          t.objects.map PendingApproval.id = s.objects.map PendingApproval.id) expired _ rfl
        fun t ht e _ => (hexpire t e).trans ht
    split <;> exact hall

/-- Reading again what has been written adds nothing. -/
lemma syncStore_of_filed {file : Option (ApprovalFile R)} (hfiled : Filed s)
    (hread : ∀ f ∈ file, ∃ saved ∈ s.file, ∀ row ∈ f.pending,
      ∃ a ∈ saved.pending, a.id = row.id ∧ a.status = row.status) :
    syncStore s file = s := by
  cases file with
  | none => rfl
  | some file =>
    obtain ⟨saved, hsaved, hrows⟩ := hread file rfl
    refine List.foldlRecOn (motive := fun t => t = s) file.pending syncRow rfl ?_
    rintro t ht row hrow
    subst ht
    obtain ⟨a, ha, hid, hstatus⟩ := hrows row hrow
    refine if_neg ?_
    rintro ⟨hpending, hnew⟩
    rw [← hid, hfiled saved hsaved a ha (hstatus ▸ hpending)] at hnew
    cases hnew

/-- The file shows the table and the history. -/
def Shown (s : ApprovalStore R) : Prop :=
  s.file = some ⟨s.rows (s.pending.map Prod.snd), s.rows s.history⟩

lemma filed_of_shown (h : InPlace s) (hshown : Shown s) : Filed s := by
  intro file hfile row hrow _
  obtain rfl := Option.some.inj (hshown.symm.trans hfile)
  obtain ⟨ref, href, hobject⟩ := List.mem_filterMap.mp hrow
  obtain ⟨e, he, rfl⟩ := List.mem_map.mp href
  have hget : get? s.pending e.1 = some e.2 := get?_of_mem h.keys he
  obtain ⟨a, ha, hid⟩ := h.table e.1 e.2 hget
  obtain rfl := Option.some.inj (ha.symm.trans hobject)
  rw [has_iff, hid, hget]
  rfl

lemma shown_save (s : ApprovalStore R) : Shown (s.save true) := rfl

/-- What a section leaves behind: the file shows the table and the history, or neither the file nor
the table has been touched; and the history has only grown. -/
structure Saved (s t : ApprovalStore R) : Prop where
  file : Shown t ∨ (t.file = s.file ∧ t.pending = s.pending)
  history : s.history ⊆ t.history

lemma Saved.same {s t : ApprovalStore R} (hfile : t.file = s.file)
    (hpending : t.pending = s.pending) (hhistory : t.history = s.history) : Saved s t :=
  ⟨.inr ⟨hfile, hpending⟩, hhistory ▸ List.Subset.refl _⟩

/-- A section that ends with the file being written. -/
lemma Saved.save {s t : ApprovalStore R} (h : s.history ⊆ t.history) : Saved s (t.save true) :=
  ⟨.inl (shown_save t), h⟩

lemma saved_cleanupExpired (now : Moment) : Saved s (s.cleanupExpired now true) := by
  unfold ApprovalStore.cleanupExpired
  dsimp only
  split
  · exact .same rfl rfl rfl
  · refine .save ?_
    exact List.foldlRecOn (motive := fun t : ApprovalStore R => s.history ⊆ t.history) _ _
      (List.Subset.refl _) fun t ht e _ => List.subset_append_of_subset_left _ ht

lemma saved_step (ttl : ℤ) (hcall : Orderly s call) (hfiled : Filed s) :
    Saved s (approvalSystem ttl s call).1 := by
  obtain ⟨now, saves, action⟩ := call
  obtain ⟨rfl, haction⟩ := hcall
  cases action with
  | load file => exact haction.elim
  | sync file =>
    change Saved s (syncStore s file)
    rw [syncStore_of_filed hfiled haction]
    exact .same rfl rfl rfl
  | request id request => exact .save (saved_cleanupExpired now).history
  | approve id approvedBy =>
    change Saved s (approve s now true id approvedBy).1
    unfold approve
    split
    · exact .same rfl rfl rfl
    · split
      · exact .save (List.subset_append_left _ _)
      · split <;> exact .same rfl rfl rfl
  | start ref =>
    change Saved s (startContainer s ref).1
    unfold startContainer
    split
    · split <;> exact .same rfl rfl rfl
    · exact .same rfl rfl rfl
  | started ref ok =>
    change Saved s (finishApprove s now true ref ok).1
    unfold finishApprove
    split
    · split
      · dsimp only
        split <;> exact .save (List.subset_append_left _ _)
      · exact .same rfl rfl rfl
    · exact .same rfl rfl rfl
  | reject id rejectedBy =>
    change Saved s (reject s now id rejectedBy).1
    unfold reject
    split
    · exact .same rfl rfl rfl
    · split <;> exact .same rfl rfl rfl
  | rejected ref =>
    change Saved s (finishReject s true ref).1
    unfold finishReject
    split
    · split
      · exact .save (List.subset_append_left _ _)
      · exact .same rfl rfl rfl
    · exact .same rfl rfl rfl
  | getPending => exact saved_cleanupExpired now
  | getApproval id =>
    change Saved s (getApproval s now id).1
    unfold getApproval
    split
    · exact .same rfl rfl rfl
    · dsimp only
      split <;> exact .same rfl rfl rfl

/-- An orderly section keeps every approval in its place. -/
lemma inPlace_step (h : InPlace s) (hfiled : Filed s) (hcall : Orderly s call) :
    InPlace (approvalSystem ttl s call).1 := by
  obtain ⟨now, saves, action⟩ := call
  obtain ⟨rfl, haction⟩ := hcall
  cases action with
  | load file => exact haction.elim
  | sync file =>
    change InPlace (syncStore s file)
    rwa [syncStore_of_filed hfiled haction]
  | request id request =>
    have hcleaned : InPlace (s.cleanupExpired now true) := h.cleanupExpired
    suffices hadded : InPlace ((s.cleanupExpired now true).add
        { id, request, expiresAt := now.time + ttl }) from
      (hadded.save : InPlace (ApprovalStore.save _ true))
    refine hcleaned.add rfl fun b hb hid => ?_
    have hmem : id ∈ s.objects.map PendingApproval.id := by
      rw [← ids_cleanupExpired now true]
      exact List.mem_map.mpr ⟨b, hb, hid⟩
    obtain ⟨a, ha, hid⟩ := List.mem_map.mp hmem
    exact haction a ha hid
  | approve id approvedBy => exact h.approve haction
  | start ref => exact h.startContainer
  | started ref ok => exact h.finishApprove
  | reject id rejectedBy => exact h.reject
  | rejected ref => exact h.finishReject
  | getPending => exact h.cleanupExpired
  | getApproval id => exact h.getApproval

lemma filed_step (h : InPlace s) (hfiled : Filed s) (hcall : Orderly s call) :
    Filed (approvalSystem ttl s call).1 := by
  rcases (saved_step ttl hcall hfiled).file with hshown | ⟨hfile, hpending⟩
  · exact filed_of_shown (inPlace_step h hfiled hcall) hshown
  · intro file hf row hrow hstatus
    rw [hfile] at hf
    rw [hpending]
    exact hfiled file hf row hrow hstatus

/-- An orderly run keeps every approval in its place, and its history only grows. -/
lemma inPlace_after {calls : List (ApprovalCall R)} (h : InPlace s) (hfiled : Filed s)
    (hcalls : (approvalSystem ttl).Always Orderly s calls) :
    InPlace ((approvalSystem ttl).after s calls) ∧ Filed ((approvalSystem ttl).after s calls) ∧
      s.history ⊆ ((approvalSystem ttl).after s calls).history := by
  refine System.invariant (I := fun t => InPlace t ∧ Filed t ∧ s.history ⊆ t.history) ?_ hcalls
    ⟨h, hfiled, List.Subset.refl _⟩
  rintro t call ⟨ht, htfiled, hsub⟩ hcall
  exact ⟨inPlace_step ht htfiled hcall, filed_step ht htfiled hcall,
    List.Subset.trans hsub (saved_step ttl hcall htfiled).history⟩

lemma Orderly.loadsSettled (h : Orderly s call) : call.LoadsSettled := by
  intro file hload
  have haction := h.2
  rw [hload] at haction
  exact haction.elim

end Orderly

/-- In an orderly run every id is put in the table at most once, and it is then started, rejected
and expired at most once together.  Its one approval is in one place: it waits in the table, one
call holds it, or it is in the history once; the status it has there is that of the call that has
resolved it, or its start has failed; and it stays in the history in every orderly run from
there. -/
theorem approvals_onePlace (ttl : ℤ) {calls : List (ApprovalCall R)}
    (hcalls : (approvalSystem ttl).Always Orderly ({} : ApprovalStore R) calls) (id : String) :
    let s := (approvalSystem ttl).after ({} : ApprovalStore R) calls
    s.log.countP (isStarted id) + s.log.countP (isRefused id) ≤ s.log.countP (isAdded id) ∧
      s.log.countP (isAdded id) ≤ 1 ∧
      ∀ ref a, s.objects[ref]? = some a → a.id = id →
        (∀ r b, s.objects[r]? = some b → b.id = id → r = ref) ∧
          Place ref (get? s.pending id) (s.counts ref) a.status ∧
          (a.status ≠ .pending → Fate s.log a) ∧
          ∀ more, (approvalSystem ttl).Always Orderly s more → ref ∈ s.history →
            ref ∈ ((approvalSystem ttl).after s more).history := by
  intro s
  have hempty : Filed ({} : ApprovalStore R) := fun file hfile =>
    absurd hfile (Option.not_mem_none file)
  obtain ⟨hkept, hfiled, -⟩ := inPlace_after InPlace.empty hempty hcalls
  have hbalanced : Balanced s :=
    System.invariant (fun t call ht hcall => balanced_step ht hcall.loadsSettled) hcalls
      Balanced.empty
  refine ⟨?_, ?_, fun ref a ha hid => ⟨fun r b hb hbid => ?_, ?_, ?_, fun more hmore hmem => ?_⟩⟩
  · have hadded := hbalanced.added id
    have hstarted := hbalanced.started id
    have hsplit := countP_isResolved id s.log
    omega
  · exact (hkept.added id).trans_le (List.nodup_iff_count_le_one.mp hkept.ids id)
  · by_contra hne
    exact hkept.id_ne ha hb hne (hbid.trans hid.symm)
  · exact hid ▸ hkept.place ref a ha
  · exact hkept.fate a (List.mem_of_getElem? ha)
  · exact (inPlace_after hkept hfiled hmore).2.2 hmem

/-- Two approvals: one is approved and started while the other one is rejected, and the file is read
again in between. -/
def orderlyCalls : List (ApprovalCall String) :=
  [⟨⟨0, "t0"⟩, true, .request "a1" "web"⟩, ⟨⟨1, "t1"⟩, true, .request "a2" "db"⟩,
    ⟨⟨2, "t2"⟩, true, .approve "a1" "user"⟩, ⟨⟨3, "t3"⟩, true, .reject "a2" "user"⟩,
    ⟨⟨3, "t3"⟩, true, .sync (some ⟨[{ id := "a1", request := "web", expiresAt := 300 }], []⟩)⟩,
    ⟨⟨4, "t4"⟩, true, .start 0⟩, ⟨⟨5, "t5"⟩, true, .rejected 1⟩,
    ⟨⟨6, "t6"⟩, true, .started 0 false⟩]

theorem approvals_onePlace_orderly :
    let s := (approvalSystem 300).after {} orderlyCalls
    s.log.countP (isStarted "a1") = 1 ∧ Place 0 (get? s.pending "a1") (s.counts 0) .rejected := by
  intro s
  have hall : (approvalSystem 300).Always Orderly {} orderlyCalls := by decide +kernel
  have hobject : s.objects[0]? = some
      { id := "a1", request := "web", status := .rejected, expiresAt := 300,
        resolvedAt := some "t6", resolvedBy := some "system_start_failed" } := by decide +kernel
  exact ⟨by decide +kernel, ((approvals_onePlace 300 hall "a1").2.2 0 _ hobject rfl).2.1⟩

end Trion.Commander
