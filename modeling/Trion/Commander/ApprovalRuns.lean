import Mathlib.Algebra.Order.Ring.Nat
import Mathlib.Data.List.Count
import Trion.Commander.Approvals

/-!
# Approvals are used up

In every run of the sections, in any order, with restarts, with rows read from any file and with
files that cannot be written, an id that has been put in the table so many times is started,
rejected and expired at most so many times together.
-/

namespace Trion.Commander

open OrderedDict OperationRun ApprovalStore

variable {R : Type}

/-! ### Counting -/

namespace ApprovalEvent

/-- The id is put in the table. -/
def isAdded (id : String) : ApprovalEvent R → Bool
  | .added id' _ _ => id' = id
  | _ => false

/-- A pending approval with this id gets another status. -/
def isResolved (id : String) : ApprovalEvent R → Bool
  | .resolved id' _ _ => id' = id
  | _ => false

/-- A pending approval with this id is approved. -/
def isApproved (id : String) : ApprovalEvent R → Bool
  | .resolved id' status _ => id' = id && status = .approved
  | _ => false

/-- A pending approval with this id is rejected or runs out. -/
def isRefused (id : String) : ApprovalEvent R → Bool
  | .resolved id' status _ => id' = id && status ≠ .approved
  | _ => false

/-- The container of this id is started. -/
def isStarted (id : String) : ApprovalEvent R → Bool
  | .started id' _ => id' = id
  | _ => false

/-- What must have happened before an event: what is approved is in time, what runs out is late,
and what is started has been approved in time, with what it asks for. -/
def Sound (before : List (ApprovalEvent R)) : ApprovalEvent R → Prop
  | .resolved id .approved time => ∃ request limit, .added id request limit ∈ before ∧ time ≤ limit
  | .resolved id .expired time => ∃ request limit, .added id request limit ∈ before ∧ limit < time
  | .started id request => ∃ limit time, .added id request limit ∈ before ∧
      .resolved id .approved time ∈ before ∧ time ≤ limit
  | _ => True

end ApprovalEvent

open ApprovalEvent

/-- How many approvals with this id are pending. -/
def ApprovalStore.waiting (s : ApprovalStore R) (id : String) : ℕ :=
  s.objects.countP fun a => a.id = id && a.status = .pending

/-- How many calls hold an approval with this id that they are about to start. -/
def ApprovalStore.holders (s : ApprovalStore R) (id : String) : ℕ :=
  s.approved.countP fun ref => s.objects[ref]?.map PendingApproval.id = some id

/-- Changing one entry of a list changes a count by that entry. -/
lemma countP_modify {α : Type} {p : α → Bool} {f : α → α} {l : List α} {i : ℕ} {a : α}
    (h : l[i]? = some a) :
    (l.modify i f).countP p + (if p a then 1 else 0) =
      l.countP p + (if p (f a) then 1 else 0) := by
  induction l generalizing i with
  | nil => cases h
  | cons b l ih =>
    cases i with
    | zero =>
      obtain rfl := Option.some.inj h
      rw [List.modify_zero_cons, List.countP_cons, List.countP_cons]
      omega
    | succ i =>
      have hrest := ih h
      rw [List.modify_succ_cons, List.countP_cons, List.countP_cons]
      omega

/-- The id, the request and the time limit of an approval are never changed. -/
structure KeepsOffer (f : PendingApproval R → PendingApproval R) : Prop where
  id : ∀ a, (f a).id = a.id
  request : ∀ a, (f a).request = a.request
  expiresAt : ∀ a, (f a).expiresAt = a.expiresAt

lemma keepsOffer_status (status : ApprovalStatus) :
    KeepsOffer (R := R) fun a => { a with status } :=
  ⟨fun _ => rfl, fun _ => rfl, fun _ => rfl⟩

lemma keepsOffer_stamp (now : Moment) (resolvedBy : String) :
    KeepsOffer (R := R) fun a =>
      { a with resolvedAt := some now.isoformat, resolvedBy := some resolvedBy } :=
  ⟨fun _ => rfl, fun _ => rfl, fun _ => rfl⟩

/-- Whatever an object is after a change. -/
lemma getElem?_modify_some {objects : List (PendingApproval R)}
    (f : PendingApproval R → PendingApproval R) (ref : ℕ) {r : ℕ} {a : PendingApproval R}
    (h : objects[r]? = some a) :
    (objects.modify ref f)[r]? = some a ∨ (objects.modify ref f)[r]? = some (f a) := by
  rw [List.getElem?_modify, h]
  change some (if ref = r then f a else a) = some a ∨ some (if ref = r then f a else a) = some (f a)
  split
  · exact .inr rfl
  · exact .inl rfl

/-- An object after a change is the object before it, changed or not. -/
lemma exists_of_modify {objects : List (PendingApproval R)}
    {f : PendingApproval R → PendingApproval R} {ref r : ℕ} {a : PendingApproval R}
    (h : (objects.modify ref f)[r]? = some a) :
    ∃ b, objects[r]? = some b ∧ (a = b ∨ (r = ref ∧ a = f b)) := by
  rw [List.getElem?_modify] at h
  obtain ⟨b, hb, rfl⟩ := Option.map_eq_some_iff.mp h
  refine ⟨b, hb, ?_⟩
  split
  · rename_i heq
    exact .inr ⟨heq.symm, rfl⟩
  · exact .inl rfl

/-- Changing an object leaves the ids of all objects as they are. -/
lemma map_id_modify {objects : List (PendingApproval R)}
    {f : PendingApproval R → PendingApproval R} (hf : KeepsOffer f) (ref r : ℕ) :
    (objects.modify ref f)[r]?.map PendingApproval.id = objects[r]?.map PendingApproval.id := by
  rw [List.getElem?_modify]
  cases objects[r]? with
  | none => rfl
  | some a =>
    change some (if ref = r then f a else a).id = some a.id
    split
    · rw [hf.id]
    · rfl

lemma holders_modify {s : ApprovalStore R} {f : PendingApproval R → PendingApproval R} {ref : ℕ}
    {log : List (ApprovalEvent R)} (hf : KeepsOffer f) (id : String) :
    ({ s with objects := s.objects.modify ref f, log } : ApprovalStore R).holders id =
      s.holders id := by
  unfold holders
  simp only [map_id_modify hf]

/-- The status comes at the right time: what is approved is in time and what runs out is late. -/
def InTime (a : PendingApproval R) (now : Moment) : ApprovalStatus → Prop
  | .pending => False
  | .approved => now.time ≤ a.expiresAt
  | .expired => a.expiresAt < now.time
  | .rejected => True

/-- The books of a run: what has been put in the table has been resolved or is pending; what has
been approved has been started, is held by a call, or is forgotten; and every event is sound. -/
structure Balanced (s : ApprovalStore R) : Prop where
  added : ∀ id, s.log.countP (isAdded id) = s.log.countP (isResolved id) + s.waiting id
  started : ∀ id, s.log.countP (isStarted id) + s.holders id ≤ s.log.countP (isApproved id)
  known : ∀ a ∈ s.objects, a.status = .pending → .added a.id a.request a.expiresAt ∈ s.log
  held : ∀ ref ∈ s.approved, ∃ a, s.objects[ref]? = some a ∧
    .added a.id a.request a.expiresAt ∈ s.log ∧
      ∃ time ≤ a.expiresAt, .resolved a.id .approved time ∈ s.log
  sound : EachEvent Sound s.log

namespace Balanced

variable {s t : ApprovalStore R} {id : String} {ref : ℕ} {now : Moment} {saves : Bool}

lemma empty : Balanced ({} : ApprovalStore R) where
  added _ := rfl
  started _ := le_rfl
  known _ ha := absurd ha List.not_mem_nil
  held _ href := absurd href List.not_mem_nil
  sound := eachEvent_nil

/-- The books do not look at the table, the history and the file, and calls may be forgotten. -/
lemma of_sublist (h : Balanced s) (hobjects : t.objects = s.objects) (hlog : t.log = s.log)
    (happroved : t.approved.Sublist s.approved) : Balanced t where
  added id := by
    simpa only [waiting, hobjects, hlog] using h.added id
  started id := by
    have hholders : t.holders id ≤ s.holders id := by
      unfold holders
      rw [hobjects]
      exact happroved.countP_le
    have hs := h.started id
    rw [hlog]
    omega
  known := by simpa only [hobjects, hlog] using h.known
  held ref href := by
    rw [hlog, hobjects]
    exact h.held ref (happroved.subset href)
  sound := hlog ▸ h.sound

lemma save (h : Balanced s) : Balanced (s.save saves) := by
  unfold ApprovalStore.save
  split
  · exact h.of_sublist rfl rfl (List.Sublist.refl _)
  · exact h

lemma retire (h : Balanced s) : Balanced (s.retire id ref) :=
  h.of_sublist rfl rfl (List.Sublist.refl _)

/-- A change that leaves pending approvals pending, and the others as they are, keeps the books. -/
lemma modify {f : PendingApproval R → PendingApproval R} (h : Balanced s) (hf : KeepsOffer f)
    (hstatus : ∀ a, s.objects[ref]? = some a → ((f a).status = .pending ↔ a.status = .pending)) :
    Balanced { s with objects := s.objects.modify ref f } := by
  constructor
  case added =>
    intro id
    have hwaiting : ({ s with objects := s.objects.modify ref f } : ApprovalStore R).waiting id =
        s.waiting id := by
      unfold waiting
      dsimp only
      cases href : s.objects[ref]? with
      | none => rw [List.modify_eq_self (List.getElem?_eq_none_iff.mp href)]
      | some a =>
        have hcount := countP_modify (p := fun b => b.id = id && b.status = .pending) (f := f) href
        simp only [hf.id, hstatus a href] at hcount
        exact Nat.add_right_cancel hcount
    rw [hwaiting]
    exact h.added id
  case started =>
    intro id
    rw [holders_modify hf]
    exact h.started id
  case known =>
    intro a ha hpending
    obtain ⟨r, hr⟩ := List.mem_iff_getElem?.mp ha
    obtain ⟨b, hb, rfl | ⟨rfl, rfl⟩⟩ := exists_of_modify hr
    · exact h.known a (List.mem_of_getElem? hb) hpending
    · rw [hf.id, hf.request, hf.expiresAt]
      exact h.known b (List.mem_of_getElem? hb) ((hstatus b hb).mp hpending)
  case held =>
    intro r hr
    obtain ⟨b, hb, hheld⟩ := h.held r hr
    rcases getElem?_modify_some f ref hb with hsame | hnew
    · exact ⟨b, hsame, hheld⟩
    · exact ⟨f b, hnew, by rwa [hf.id, hf.request, hf.expiresAt]⟩
  case sound => exact h.sound

lemma stamp {resolvedBy : String} (h : Balanced s) : Balanced (s.stamp ref now resolvedBy) :=
  h.modify (keepsOffer_stamp now resolvedBy) fun _ _ => Iff.rfl

/-- What happens when a pending approval gets a status. -/
lemma log_setStatus (now : Moment) (status : ApprovalStatus) {a : PendingApproval R}
    (ha : s.objects[ref]? = some a) (hpending : a.status = .pending) :
    (s.setStatus ref status now).log = s.log ++ [.resolved a.id status now.time] := by
  rw [ApprovalStore.setStatus, ha]
  exact congrArg (s.log ++ ·) (if_pos hpending)

/-- Giving an approval a status keeps the books, if it comes at the right time. -/
lemma setStatus {status : ApprovalStatus} (h : Balanced s) (hstatus : status ≠ .pending)
    (htime : ∀ a, s.objects[ref]? = some a → a.status = .pending → InTime a now status) :
    Balanced (s.setStatus ref status now) := by
  have hkeeps := keepsOffer_status (R := R) status
  by_cases hchange : ∃ a, s.objects[ref]? = some a ∧ a.status = .pending
  · obtain ⟨a, ha, hpending⟩ := hchange
    have hlog := log_setStatus now status ha hpending
    have hsub : s.log ⊆ (s.setStatus ref status now).log := List.subset_append_left _ _
    have hadded := h.known a (List.mem_of_getElem? ha) hpending
    constructor
    case added =>
      intro id
      have hcount := countP_modify (p := fun b => b.id = id && b.status = .pending)
        (f := fun b => { b with status }) ha
      have hbefore := h.added id
      simp only [hpending, hstatus, decide_true, decide_false, Bool.and_true, Bool.and_false,
        Bool.false_eq_true, if_false, Nat.add_zero] at hcount
      have hresolved : (s.log ++ [resolved a.id status now.time]).countP (isResolved id) =
          s.log.countP (isResolved id) + if a.id = id then 1 else 0 := by
        simp [List.countP_append, List.countP_singleton, isResolved]
      have hadditions : (s.log ++ [resolved a.id status now.time]).countP (isAdded id) =
          s.log.countP (isAdded id) := by
        simp [List.countP_append, isAdded]
      rw [hlog, hresolved, hadditions]
      change _ = _ + (s.objects.modify ref fun b => { b with status }).countP _
      unfold waiting at hbefore
      simp only [decide_eq_true_eq] at hcount
      omega
    case started =>
      intro id
      have hbefore := h.started id
      have hholders : (s.setStatus ref status now).holders id = s.holders id :=
        holders_modify hkeeps id
      rw [hlog, hholders, List.countP_append, List.countP_append, List.countP_singleton]
      simp only [isStarted, Bool.false_eq_true, if_false, Nat.add_zero]
      omega
    case known =>
      intro b hb hwaits
      obtain ⟨r, hr⟩ := List.mem_iff_getElem?.mp hb
      obtain ⟨c, hc, rfl | ⟨-, rfl⟩⟩ := exists_of_modify hr
      · exact hsub (h.known b (List.mem_of_getElem? hc) hwaits)
      · exact absurd hwaits hstatus
    case held =>
      intro r hr
      obtain ⟨b, hb, hoffer, time, hle, hresolved⟩ := h.held r hr
      rcases getElem?_modify_some (fun b => { b with status }) ref hb with hb | hb
      · exact ⟨b, hb, hsub hoffer, time, hle, hsub hresolved⟩
      · exact ⟨_, hb, hsub hoffer, time, hle, hsub hresolved⟩
    case sound =>
      rw [hlog, eachEvent_append_singleton]
      refine ⟨h.sound, ?_⟩
      have hin := htime a ha hpending
      cases status with
      | pending => exact absurd rfl hstatus
      | approved => exact ⟨a.request, a.expiresAt, hadded, hin⟩
      | expired => exact ⟨a.request, a.expiresAt, hadded, hin⟩
      | rejected => trivial
  · have hsame : s.setStatus ref status now =
        { s with objects := s.objects.modify ref fun a => { a with status } } := by
      rw [ApprovalStore.setStatus]
      cases ha : s.objects[ref]? with
      | none => rw [List.append_nil]
      | some a =>
        dsimp only
        rw [if_neg fun hpending => hchange ⟨a, ha, hpending⟩, List.append_nil]
    rw [hsame]
    exact h.modify hkeeps fun a ha =>
      ⟨fun hpending => absurd hpending hstatus, fun hpending => absurd ⟨a, ha, hpending⟩ hchange⟩

lemma holders_append {a : PendingApproval R} {log : List (ApprovalEvent R)}
    {pending : List (String × ℕ)} {history : List ℕ} (h : Balanced s) (id : String) :
    ({ s with objects := s.objects ++ [a], pending, history, log } : ApprovalStore R).holders id =
      s.holders id := by
  refine List.countP_congr fun r hr => ?_
  obtain ⟨b, hb, -⟩ := h.held r hr
  rw [List.getElem?_append_left (List.getElem?_eq_some_iff.mp hb).1]

/-- Putting a pending approval in the table keeps the books. -/
lemma add {a : PendingApproval R} (h : Balanced s) (ha : a.status = .pending) :
    Balanced (s.add a) := by
  have hsub : s.log ⊆ (s.add a).log := List.subset_append_left _ _
  constructor
  case added =>
    intro id
    have hbefore := h.added id
    unfold waiting at hbefore ⊢
    unfold ApprovalStore.add
    simp only [List.countP_append, List.countP_singleton, isAdded, isResolved, ha, decide_true,
      Bool.and_true, Bool.false_eq_true, if_false, Nat.add_zero, decide_eq_true_eq]
    omega
  case started =>
    intro id
    have hbefore := h.started id
    rw [ApprovalStore.add, h.holders_append]
    simp only [List.countP_append, List.countP_singleton, isStarted, isApproved,
      Bool.false_eq_true, if_false, Nat.add_zero]
    exact hbefore
  case known =>
    intro b hb hwaits
    rcases List.mem_append.mp hb with hb | hb
    · exact hsub (h.known b hb hwaits)
    · obtain rfl := List.mem_singleton.mp hb
      exact List.mem_append_right _ List.mem_cons_self
  case held =>
    intro r hr
    obtain ⟨b, hb, hoffer, time, hle, hresolved⟩ := h.held r hr
    exact ⟨b, by rwa [ApprovalStore.add, List.getElem?_append_left
      (List.getElem?_eq_some_iff.mp hb).1], hsub hoffer, time, hle, hsub hresolved⟩
  case sound => exact eachEvent_append_singleton.mpr ⟨h.sound, trivial⟩

/-- An approval that is not pending may come from a file. -/
lemma addSettled {a : PendingApproval R} {history : List ℕ} (h : Balanced s)
    (ha : a.status ≠ .pending) :
    Balanced { s with objects := s.objects ++ [a], history } := by
  constructor
  case added =>
    intro id
    have hbefore := h.added id
    unfold waiting at hbefore ⊢
    simp only [List.countP_append, List.countP_singleton, ha, decide_false, Bool.and_false,
      Bool.false_eq_true, if_false, Nat.add_zero]
    exact hbefore
  case started =>
    intro id
    rw [h.holders_append]
    exact h.started id
  case known =>
    intro b hb hwaits
    rcases List.mem_append.mp hb with hb | hb
    · exact h.known b hb hwaits
    · obtain rfl := List.mem_singleton.mp hb
      exact absurd hwaits ha
  case held =>
    intro r hr
    obtain ⟨b, hb, hheld⟩ := h.held r hr
    exact ⟨b, by rwa [List.getElem?_append_left (List.getElem?_eq_some_iff.mp hb).1], hheld⟩
  case sound => exact h.sound

/-- A call that approves in time holds the approval. -/
lemma claim {a : PendingApproval R} {approvedBy : String} (h : Balanced s)
    (ha : s.objects[ref]? = some a) (hpending : a.status = .pending)
    (htime : now.time ≤ a.expiresAt) :
    Balanced { (s.setStatus ref .approved now).stamp ref now approvedBy with
      approved := s.approved ++ [ref] } := by
  have hlog := log_setStatus now .approved ha hpending
  have hset : Balanced (s.setStatus ref .approved now) := by
    refine h.setStatus (by decide) fun b hb _ => ?_
    obtain rfl := Option.some.inj (ha.symm.trans hb)
    exact htime
  -- the stamp changes nothing, so that the books are kept for the marked approval alone
  refine stamp (s := { s.setStatus ref .approved now with approved := s.approved ++ [ref] }) ?_
  constructor
  case added => exact hset.added
  case started =>
    intro id
    have hbefore := h.started id
    have happroved : (s.log ++ [resolved a.id .approved now.time]).countP (isApproved id) =
        s.log.countP (isApproved id) + if a.id = id then 1 else 0 := by
      simp [List.countP_append, List.countP_singleton, isApproved]
    have hstarted : (s.log ++ [resolved a.id .approved now.time]).countP (isStarted id) =
        s.log.countP (isStarted id) := by
      simp [List.countP_append, isStarted]
    have hids : ∀ r, (s.setStatus ref .approved now).objects[r]?.map PendingApproval.id =
        s.objects[r]?.map PendingApproval.id := map_id_modify (keepsOffer_status _) ref
    unfold holders at hbefore ⊢
    simp only [hids, List.countP_append, List.countP_singleton, ha, Option.map_some,
      Option.some.injEq, decide_eq_true_eq]
    rw [hlog, happroved, hstarted]
    omega
  case known => exact hset.known
  case held =>
    intro r hr
    rcases List.mem_append.mp hr with hr | hr
    · exact hset.held r hr
    · obtain rfl := List.mem_singleton.mp hr
      have hobject : (s.setStatus r .approved now).objects[r]? =
          some { a with status := .approved } := by
        rw [ApprovalStore.setStatus, List.getElem?_modify_eq, ha]
        rfl
      refine ⟨_, hobject, ?_⟩
      change _ ∈ (s.setStatus r .approved now).log ∧
        ∃ time ≤ a.expiresAt, _ ∈ (s.setStatus r .approved now).log
      rw [hlog]
      exact ⟨List.mem_append_left _ (h.known a (List.mem_of_getElem? ha) hpending), now.time, htime,
        List.mem_append_right _ List.mem_cons_self⟩
  case sound => exact hset.sound

/-- A container is started for a call that holds its approval. -/
lemma start {a : PendingApproval R} (h : Balanced s) (ha : s.objects[ref]? = some a)
    (href : ref ∈ s.approved) :
    Balanced { s with
      approved := s.approved.erase ref
      starting := s.starting ++ [ref]
      log := s.log ++ [ApprovalEvent.started a.id a.request] } := by
  have hsub : s.log ⊆ s.log ++ [ApprovalEvent.started a.id a.request] :=
    List.subset_append_left _ _
  constructor
  case added =>
    intro id
    have hbefore := h.added id
    rw [List.countP_append, List.countP_append]
    exact hbefore
  case started =>
    intro id
    have hbefore := h.started id
    have hperm := (List.perm_cons_erase href).countP_eq
      fun r => decide (s.objects[r]?.map PendingApproval.id = some id)
    unfold holders at hbefore ⊢
    rw [hperm, List.countP_cons, ha] at hbefore
    simp only [List.countP_append, List.countP_singleton, isStarted, isApproved, decide_eq_true_eq,
      Option.map_some, Option.some.injEq, Bool.false_eq_true, if_false] at hbefore ⊢
    omega
  case known => exact fun b hb hwaits => hsub (h.known b hb hwaits)
  case held =>
    intro r hr
    obtain ⟨b, hb, hoffer, time, hle, hresolved⟩ := h.held r (List.mem_of_mem_erase hr)
    exact ⟨b, hb, hsub hoffer, time, hle, hsub hresolved⟩
  case sound =>
    obtain ⟨b, hb, hoffer, time, hle, hresolved⟩ := h.held ref href
    obtain rfl := Option.some.inj (ha.symm.trans hb)
    exact eachEvent_append_singleton.mpr ⟨h.sound, a.expiresAt, time, hoffer, hresolved, hle⟩

/-- A start that fails is only noted. -/
lemma noteFailed (h : Balanced s) : Balanced { s with log := s.log ++ [startFailed id] } := by
  have hsub : s.log ⊆ s.log ++ [startFailed id] := List.subset_append_left _ _
  constructor
  case added =>
    intro id'
    have hbefore := h.added id'
    rw [List.countP_append, List.countP_append]
    exact hbefore
  case started =>
    intro id'
    have hbefore := h.started id'
    rw [List.countP_append, List.countP_append]
    exact hbefore
  case known => exact fun b hb hwaits => hsub (h.known b hb hwaits)
  case held =>
    intro r hr
    obtain ⟨b, hb, hoffer, time, hle, hresolved⟩ := h.held r hr
    exact ⟨b, hb, hsub hoffer, time, hle, hsub hresolved⟩
  case sound => exact eachEvent_append_singleton.mpr ⟨h.sound, trivial⟩

/-! ### Sections -/

/-- What the table holds under an id. -/
lemma of_find? {a : PendingApproval R} (h : s.find? id = some (ref, a)) :
    get? s.pending id = some ref ∧ s.objects[ref]? = some a := by
  obtain ⟨r, hr, h⟩ := Option.bind_eq_some_iff.mp h
  obtain ⟨b, hb, heq⟩ := Option.map_eq_some_iff.mp h
  obtain ⟨rfl, rfl⟩ := Prod.mk.inj heq
  exact ⟨hr, hb⟩

lemma expire (h : Balanced s)
    (hlate : ∀ a, s.objects[ref]? = some a → a.status = .pending → a.isExpired now = true) :
    Balanced (s.expire id ref now) := by
  have hset : Balanced (s.setStatus ref .expired now) :=
    h.setStatus (by decide) fun a ha hpending =>
      of_decide_eq_true (p := a.expiresAt < now.time) (hlate a ha hpending)
  exact hset.stamp.retire

/-- What is pending after an approval has run out was pending before, with the same limit. -/
lemma late_expire {r : ℕ} (h : ∀ a, s.objects[r]? = some a → a.status = .pending →
      a.isExpired now = true) :
    ∀ a, (s.expire id ref now).objects[r]? = some a → a.status = .pending →
      a.isExpired now = true := by
  intro a ha hpending
  obtain ⟨b, hb, hcase⟩ := exists_of_modify ha
  obtain ⟨c, hc, hcase'⟩ := exists_of_modify hb
  rcases hcase' with rfl | ⟨-, rfl⟩ <;> rcases hcase with rfl | ⟨-, rfl⟩
  · exact h a hc hpending
  · exact h b hc hpending
  · cases hpending
  · cases hpending

lemma expireAll {expired : List (String × ℕ)} (h : Balanced s)
    (hlate : ∀ e ∈ expired, ∀ a, s.objects[e.2]? = some a → a.status = .pending →
      a.isExpired now = true) :
    Balanced (expired.foldl (fun s e => s.expire e.1 e.2 now) s) := by
  induction expired generalizing s with
  | nil => exact h
  | cons e expired ih =>
    refine ih (h.expire (hlate e List.mem_cons_self)) fun e' he' => ?_
    exact late_expire (hlate e' (List.mem_cons_of_mem e he'))

lemma cleanupExpired (h : Balanced s) : Balanced (s.cleanupExpired now saves) := by
  unfold ApprovalStore.cleanupExpired
  dsimp only
  split
  · exact h
  · refine (h.expireAll fun e he a ha _ => ?_).save
    have hexpired := (List.mem_filter.mp he).2
    rw [ha, Option.any_some, Bool.and_eq_true] at hexpired
    exact hexpired.2

lemma syncStore {file : Option (ApprovalFile R)} (h : Balanced s) :
    Balanced (syncStore s file) := by
  cases file with
  | none => exact h
  | some file =>
    refine List.foldlRecOn (motive := Balanced) file.pending syncRow h fun s hs row _ => ?_
    unfold syncRow
    split
    · rename_i hrow
      exact hs.add hrow.1
    · exact hs

lemma loadStore {file : Option (ApprovalFile R)} (h : Balanced s)
    (hsettled : ∀ f ∈ file, ∀ a ∈ f.history, a.status ≠ .pending) :
    Balanced (loadStore s now saves file) := by
  have hfresh : Balanced
      ({ objects := s.objects, file := s.file, log := s.log } : ApprovalStore R) :=
    h.of_sublist rfl rfl (List.nil_sublist _)
  cases file with
  | none => exact hfresh
  | some file =>
    have hpending : Balanced (file.pending.foldl loadRow
        ({ objects := s.objects, file := s.file, log := s.log } : ApprovalStore R)) := by
      refine List.foldlRecOn (motive := Balanced) file.pending loadRow hfresh fun s hs row _ => ?_
      unfold loadRow
      split
      · rename_i hrow
        exact hs.add hrow
      · rename_i hrow
        exact hs.addSettled hrow
    refine ((List.foldlRecOn (motive := Balanced) file.history loadHistoryRow hpending
      fun s hs row hrow => hs.addSettled (hsettled file rfl row hrow)).cleanupExpired).save

lemma approve {approvedBy : String} (h : Balanced s) :
    Balanced (approve s now saves id approvedBy).1 := by
  unfold Commander.approve
  split
  · exact h
  · rename_i r a hfind
    obtain ⟨-, ha⟩ := of_find? hfind
    split
    · rename_i hlate
      refine (h.expire fun b hb _ => ?_).save
      obtain rfl := Option.some.inj (ha.symm.trans hb)
      exact hlate
    · rename_i hlate
      split
      · exact h
      · rename_i hpending
        have htime : ¬ a.expiresAt < now.time := fun hlt => hlate (decide_eq_true hlt)
        exact h.claim ha (not_not.mp hpending) (not_lt.mp htime)

lemma startContainer (h : Balanced s) : Balanced (startContainer s ref).1 := by
  unfold Commander.startContainer
  split
  · rename_i a ha
    split
    · rename_i href
      exact h.start ha href
    · exact h
  · exact h

lemma finishApprove {ok : Bool} (h : Balanced s) :
    Balanced (finishApprove s now saves ref ok).1 := by
  unfold Commander.finishApprove
  split
  · split
    · have hended : Balanced { s with starting := s.starting.erase ref } :=
        h.of_sublist rfl rfl (List.Sublist.refl _)
      dsimp only
      split
      · exact hended.retire.save
      · have hset : Balanced
            ({ s with starting := s.starting.erase ref }.setStatus ref .rejected now) :=
          hended.setStatus (by decide) fun _ _ _ => trivial
        exact hset.stamp.noteFailed.retire.save
    · exact h
  · exact h

lemma reject {rejectedBy : String} (h : Balanced s) : Balanced (reject s now id rejectedBy).1 := by
  unfold Commander.reject
  split
  · exact h
  · split
    · exact h
    · rename_i r a hfind hpending
      have hset : Balanced (s.setStatus r .rejected now) :=
        h.setStatus (by decide) fun _ _ _ => trivial
      exact hset.stamp.of_sublist rfl rfl (List.Sublist.refl _)

lemma finishReject (h : Balanced s) : Balanced (finishReject s saves ref).1 := by
  unfold Commander.finishReject
  split
  · split
    · have hended : Balanced { s with rejected := s.rejected.erase ref } :=
        h.of_sublist rfl rfl (List.Sublist.refl _)
      exact hended.retire.save
    · exact h
  · exact h

lemma getApproval (h : Balanced s) : Balanced (getApproval s now id).1 := by
  unfold Commander.getApproval
  split
  · exact h
  · rename_i r a hfind
    obtain ⟨-, ha⟩ := of_find? hfind
    dsimp only
    split
    · rename_i hlate
      refine h.setStatus (by decide) fun b hb _ => ?_
      obtain rfl := Option.some.inj (ha.symm.trans hb)
      exact of_decide_eq_true (p := a.expiresAt < now.time) hlate.1
    · exact h

end Balanced

/-- The history of a file that a process starts with holds no pending approval. -/
def ApprovalCall.LoadsSettled (call : ApprovalCall R) : Prop :=
  ∀ file, call.action = .load (some file) → ∀ a ∈ file.history, a.status ≠ .pending

/-- Every section keeps the books. -/
lemma balanced_step {ttl : ℤ} {s : ApprovalStore R} {call : ApprovalCall R} (h : Balanced s)
    (hcall : call.LoadsSettled) : Balanced (approvalSystem ttl s call).1 := by
  obtain ⟨now, saves, action⟩ := call
  cases action with
  | load file =>
    refine h.loadStore fun f hf => hcall f ?_
    exact congrArg ApprovalAction.load hf
  | sync file => exact h.syncStore
  | request id request => exact ((h.cleanupExpired).add rfl).save
  | approve id approvedBy => exact h.approve
  | start ref => exact h.startContainer
  | started ref ok => exact h.finishApprove
  | reject id rejectedBy => exact h.reject
  | rejected ref => exact h.finishReject
  | getPending => exact h.cleanupExpired
  | getApproval id => exact h.getApproval

/-- What is resolved is approved or refused. -/
lemma countP_isResolved (id : String) (log : List (ApprovalEvent R)) :
    log.countP (isResolved id) = log.countP (isApproved id) + log.countP (isRefused id) := by
  induction log with
  | nil => rfl
  | cons e log ih =>
    rw [List.countP_cons, List.countP_cons, List.countP_cons, ih]
    cases e with
    | resolved id' status time =>
      by_cases hid : id' = id <;> by_cases happroved : status = .approved <;>
        simp only [isResolved, isApproved, isRefused, hid, happroved, decide_true, decide_false,
          Bool.and_true, Bool.and_false, ne_eq, not_true_eq_false, not_false_eq_true, if_true,
          Bool.false_eq_true, if_false] <;> omega
    | _ => rfl

/-- A restart while the container is being started: the file still shows the approval as pending,
so that it is put in the table and started a second time. -/
def restartedCalls : List (ApprovalCall String) :=
  [⟨⟨0, "t0"⟩, true, .request "a1" "web"⟩, ⟨⟨1, "t1"⟩, true, .approve "a1" "user"⟩,
    ⟨⟨2, "t2"⟩, true, .start 0⟩,
    ⟨⟨3, "t3"⟩, true, .load (some ⟨[{ id := "a1", request := "web", expiresAt := 300 }], []⟩)⟩,
    ⟨⟨4, "t4"⟩, true, .approve "a1" "user"⟩, ⟨⟨5, "t5"⟩, true, .start 1⟩,
    ⟨⟨6, "t6"⟩, true, .started 1 true⟩]

end Trion.Commander
