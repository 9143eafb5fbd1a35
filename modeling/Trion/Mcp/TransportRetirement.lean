import Mathlib.Data.List.Induction
import Trion.Library.Slots
import Trion.Mcp.CatalogLifecycle

/-!
# Transports are retired when nobody uses them

A transport that has been published is a transport of the published snapshot, or of one that
was overwritten, or of one a revocation has taken out; and in the last case the revocation is
about to retire it or has done so.  With fresh transports in every snapshot it is in one of
these places only, so that none is retired twice.  Tokens that have not been given back are for
transports of the published snapshot or of one that was overwritten, since a revocation takes a
snapshot out only when no token is active; so none is retired in use.
-/

namespace Trion.Mcp

open Trion.Python OrderedDict OperationRun Slots

variable {τ : Type} [DecidableEq τ]

/-! ### What has happened to transports -/

/-- The transports of the snapshots that were published. -/
def publishedTransports (events : List (CatalogEvent τ)) : List τ :=
  events.flatMap fun
    | .published snapshot => snapshotTransports (some snapshot)
    | _ => []

/-- The transports of the snapshots that were overwritten. -/
def overwrittenTransports (events : List (CatalogEvent τ)) : List τ :=
  events.flatMap fun
    | .overwritten snapshot => snapshotTransports (some snapshot)
    | _ => []

/-- The transports of the snapshots that revocations have taken out. -/
def revokedTransports (events : List (CatalogEvent τ)) : List τ :=
  events.flatMap fun
    | .revoked snapshot => snapshotTransports (some snapshot)
    | _ => []

/-- The transports `retire_transport` was called with. -/
def retiredTransports (events : List (CatalogEvent τ)) : List τ :=
  events.filterMap fun
    | .retired transport => some transport
    | _ => none

/-- Every snapshot is published with transports of its own, as `bind_transport_instance` makes
them. -/
def FreshTransports (events : List (CatalogEvent τ)) : Prop := (publishedTransports events).Nodup

section Events

variable (events events' : List (CatalogEvent τ))

@[simp] lemma publishedTransports_append :
    publishedTransports (events ++ events') =
      publishedTransports events ++ publishedTransports events' := List.flatMap_append

@[simp] lemma overwrittenTransports_append :
    overwrittenTransports (events ++ events') =
      overwrittenTransports events ++ overwrittenTransports events' := List.flatMap_append

@[simp] lemma revokedTransports_append :
    revokedTransports (events ++ events') =
      revokedTransports events ++ revokedTransports events' := List.flatMap_append

omit [DecidableEq τ] in
@[simp] lemma retiredTransports_append :
    retiredTransports (events ++ events') =
      retiredTransports events ++ retiredTransports events' := List.filterMap_append ..

lemma FreshTransports.of_append {events events' : List (CatalogEvent τ)}
    (h : FreshTransports (events ++ events')) : FreshTransports events := by
  unfold FreshTransports at h ⊢
  rw [publishedTransports_append] at h
  exact (List.nodup_append.mp h).1

/-- An event that is not about a snapshot or a retirement. -/
lemma transports_of_other {event : CatalogEvent τ}
    (h : (∃ token, event = .acquired token) ∨ (∃ error, event = .refused error) ∨
      ∃ outcome, event = .finished outcome) :
    publishedTransports [event] = [] ∧ overwrittenTransports [event] = [] ∧
      revokedTransports [event] = [] ∧ retiredTransports [event] = [] := by
  rcases h with ⟨token, rfl⟩ | ⟨error, rfl⟩ | ⟨outcome, rfl⟩ <;> exact ⟨rfl, rfl, rfl, rfl⟩

/-- What a revocation takes out, and what it puts in. -/
lemma transports_replaceEvents (c : Catalog τ)
    (replacement : Option (MCPToolCatalogSnapshot τ)) :
    publishedTransports (replaceEvents c replacement) = snapshotTransports replacement ∧
      overwrittenTransports (replaceEvents c replacement) = [] ∧
      revokedTransports (replaceEvents c replacement) = snapshotTransports c.publishedSnapshot ∧
      retiredTransports (replaceEvents c replacement) = [] := by
  unfold replaceEvents
  cases c.publishedSnapshot with
  | none =>
    cases replacement with
    | none => exact ⟨rfl, rfl, rfl, rfl⟩
    | some snapshot => exact ⟨List.append_nil _, rfl, rfl, rfl⟩
  | some old =>
    cases replacement with
    | none => exact ⟨rfl, rfl, List.append_nil _, rfl⟩
    | some snapshot => exact ⟨List.append_nil _, rfl, List.append_nil _, rfl⟩

/-- What `publish_catalog` overwrites, and what it puts in. -/
lemma transports_publish (old : Option (MCPToolCatalogSnapshot τ))
    (snapshot : MCPToolCatalogSnapshot τ) :
    publishedTransports ((old.map CatalogEvent.overwritten).toList ++ [.published snapshot]) =
        snapshotTransports (some snapshot) ∧
      overwrittenTransports ((old.map CatalogEvent.overwritten).toList ++ [.published snapshot]) =
        snapshotTransports old ∧
      revokedTransports ((old.map CatalogEvent.overwritten).toList ++ [.published snapshot]) = [] ∧
      retiredTransports ((old.map CatalogEvent.overwritten).toList ++ [.published snapshot]) =
        [] := by
  cases old with
  | none => exact ⟨List.append_nil _, rfl, rfl, rfl⟩
  | some old => exact ⟨List.append_nil _, List.append_nil _, rfl, rfl⟩

end Events

/-! ### The transports of a snapshot -/

lemma mem_addTransport {transports : List τ} {transport t : τ} :
    t ∈ addTransport transports transport ↔ t ∈ transports ∨ t = transport := by
  unfold addTransport
  split
  · constructor
    · exact .inl
    · rintro (h | rfl)
      · exact h
      · assumption
  · simp

lemma mem_foldl_addTransport {routes : List (String × Route τ)} {transports : List τ} {t : τ} :
    t ∈ routes.foldl (fun transports route => addTransport transports route.2.transport)
      transports ↔ t ∈ transports ∨ ∃ route ∈ routes, t = route.2.transport := by
  induction routes generalizing transports with
  | nil => simp
  | cons route routes ih =>
    rw [List.foldl_cons, ih, mem_addTransport]
    constructor
    · rintro ((h | rfl) | ⟨other, hother, rfl⟩)
      · exact .inl h
      · exact .inr ⟨route, List.mem_cons_self, rfl⟩
      · exact .inr ⟨other, List.mem_cons_of_mem _ hother, rfl⟩
    · rintro (h | ⟨other, hother, rfl⟩)
      · exact .inl (.inl h)
      · rcases List.mem_cons.mp hother with rfl | hother
        · exact .inl (.inr rfl)
        · exact .inr ⟨other, hother, rfl⟩

/-- The transport of a route is one of the snapshot. -/
lemma mem_snapshotTransports {snapshot : MCPToolCatalogSnapshot τ} {toolName : String}
    {route : Route τ} (h : get? snapshot.routesByTool toolName = some route) :
    route.transport ∈ snapshotTransports (some snapshot) :=
  mem_foldl_addTransport.mpr (.inr ⟨_, mem_of_get? h, rfl⟩)

/-! ### Where the transports are -/

/-- The transports a revocation has yet to retire. -/
def Revocation.remaining : Revocation τ → List τ
  | .retiring transports _ _ _ => transports
  | _ => []

/-- Where tokens and transports are. -/
structure Sound (events : List (CatalogEvent τ)) (c : Catalog τ) : Prop where
  counted : c.activeTokens = c.leases.countP CatalogLease.isUnreleased
  notified : c.activeTokens = 0 → ∀ replacement, .waiting replacement ∉ c.revocations
  placed : ∀ t, (publishedTransports events).count t =
    (snapshotTransports c.publishedSnapshot).count t + (overwrittenTransports events).count t +
      (revokedTransports events).count t
  retiring : ∀ t, (revokedTransports events).count t =
    (c.revocations.flatMap Revocation.remaining).count t + (retiredTransports events).count t
  retired : ∀ transports retired count errors,
    .retiring transports retired count errors ∈ c.revocations →
    ∀ t ∈ retired, t ∈ retiredTransports events
  leased : ∀ lease ∈ c.leases, lease.isUnreleased = true →
    lease.transport ∈ snapshotTransports c.publishedSnapshot ∨
      lease.transport ∈ overwrittenTransports events

lemma sound_empty : Sound ([] : List (CatalogEvent τ)) {} := by
  constructor
  case counted => rfl
  case notified => simp
  case placed => exact fun t => rfl
  case retiring => exact fun t => rfl
  case retired => simp
  case leased => simp

variable {events : List (CatalogEvent τ)} {c : Catalog τ}

lemma FreshTransports.count_le_one (hfresh : FreshTransports events) (t : τ) :
    (publishedTransports events).count t ≤ 1 := List.nodup_iff_count.mp hfresh t

/-- No token is active where every lease has been released. -/
lemma Sound.released (h : Sound events c) (hnone : c.activeTokens = 0) :
    ∀ lease ∈ c.leases, lease.isUnreleased = false := by
  have hcount := h.counted
  rw [hnone] at hcount
  intro lease hlease
  simpa using List.countP_eq_zero.mp hcount.symm lease hlease

/-! ### One operation -/

/-- What the state says about tokens and revocations stays, and nothing happens to
transports. -/
lemma Sound.of_same {c' : Catalog τ} {event : List (CatalogEvent τ)} (h : Sound events c)
    (hpublished : publishedTransports event = []) (hoverwritten : overwrittenTransports event = [])
    (hrevoked : revokedTransports event = []) (hretired : retiredTransports event = [])
    (hsnapshot : c'.publishedSnapshot = c.publishedSnapshot)
    (hremaining : c'.revocations.flatMap Revocation.remaining =
      c.revocations.flatMap Revocation.remaining)
    (hcounted : c'.activeTokens = c'.leases.countP CatalogLease.isUnreleased)
    (hnotified : c'.activeTokens = 0 → ∀ replacement, .waiting replacement ∉ c'.revocations)
    (hloops : ∀ transports retired count errors,
      .retiring transports retired count errors ∈ c'.revocations →
      .retiring transports retired count errors ∈ c.revocations)
    (hleased : ∀ lease ∈ c'.leases, lease.isUnreleased = true →
      lease.transport ∈ snapshotTransports c.publishedSnapshot ∨
        ∃ lease' ∈ c.leases, lease'.isUnreleased = true ∧ lease'.transport = lease.transport) :
    Sound (events ++ event) c' := by
  constructor
  case counted => exact hcounted
  case notified => exact hnotified
  case placed =>
    intro t
    rw [publishedTransports_append, overwrittenTransports_append, revokedTransports_append,
      hpublished, hoverwritten, hrevoked, List.append_nil, List.append_nil, List.append_nil,
      hsnapshot]
    exact h.placed t
  case retiring =>
    intro t
    rw [revokedTransports_append, retiredTransports_append, hrevoked, hretired, List.append_nil,
      List.append_nil, hremaining]
    exact h.retiring t
  case retired =>
    intro transports retired count errors hmem
    rw [retiredTransports_append, hretired, List.append_nil]
    exact h.retired transports retired count errors (hloops _ _ _ _ hmem)
  case leased =>
    intro lease hlease hunreleased
    rw [overwrittenTransports_append, hoverwritten, List.append_nil, hsnapshot]
    rcases hleased lease hlease hunreleased with hroute | ⟨lease', hlease', hunreleased', hsame⟩
    · exact .inl hroute
    · exact hsame ▸ h.leased lease' hlease' hunreleased'

lemma sound_publish (h : Sound events c) (snapshot : MCPToolCatalogSnapshot τ) :
    Sound (events ++ ((c.publishedSnapshot.map .overwritten).toList ++ [.published snapshot]))
      (c.publish snapshot) := by
  obtain ⟨hpublished, hoverwritten, hrevoked, hretired⟩ :=
    transports_publish c.publishedSnapshot snapshot
  constructor
  case counted => exact h.counted
  case notified => exact h.notified
  case placed =>
    intro t
    have hplaced := h.placed t
    rw [publishedTransports_append, overwrittenTransports_append, revokedTransports_append,
      hpublished, hoverwritten, hrevoked]
    simp only [List.count_append, List.append_nil, Catalog.publish]
    omega
  case retiring =>
    intro t
    rw [revokedTransports_append, retiredTransports_append, hrevoked, hretired, List.append_nil,
      List.append_nil]
    exact h.retiring t
  case retired =>
    rw [retiredTransports_append, hretired, List.append_nil]
    exact h.retired
  case leased =>
    -- what a token is for has been overwritten now
    intro lease hlease hunreleased
    right
    rw [overwrittenTransports_append, hoverwritten, List.mem_append]
    exact (h.leased lease hlease hunreleased).symm

lemma sound_acquire (h : Sound events c) (toolName : String) :
    Sound (events ++ (catalogLifecycle c (.acquire toolName)).2)
      (catalogLifecycle c (.acquire toolName)).1 := by
  unfold catalogLifecycle Catalog.acquire
  dsimp only
  have hrefused : ∀ error, Sound (events ++ [.refused error]) c := by
    intro error
    obtain ⟨hpublished, hoverwritten, hrevoked, hretired⟩ :=
      transports_of_other (τ := τ) (.inr (.inl ⟨error, rfl⟩))
    exact h.of_same hpublished hoverwritten hrevoked hretired rfl rfl h.counted h.notified
      (fun _ _ _ _ hmem => hmem) fun lease hlease hunreleased =>
        .inr ⟨lease, hlease, hunreleased, rfl⟩
  split
  · rename_i c' token heq
    split at heq
    · simp at heq
    · cases hroute : c.publishedSnapshot.bind fun snapshot => get? snapshot.routesByTool toolName with
      | none =>
        rw [hroute] at heq
        simp at heq
      | some route =>
        rw [hroute] at heq
        obtain ⟨rfl, -⟩ := Prod.mk.inj heq
        obtain ⟨snapshot, hsnapshot, hroute⟩ := Option.bind_eq_some_iff.mp hroute
        obtain ⟨hpublished, hoverwritten, hrevoked, hretired⟩ :=
          transports_of_other (τ := τ) (.inl ⟨token, rfl⟩)
        refine h.of_same hpublished hoverwritten hrevoked hretired rfl rfl ?_ ?_
          (fun _ _ _ _ hmem => hmem) ?_
        · have hcounted := h.counted
          have hheld : CatalogLease.isUnreleased (⟨route.transport, .held⟩ : CatalogLease τ) = true :=
            rfl
          dsimp only
          rw [List.countP_append, List.countP_singleton, if_pos hheld, ← hcounted]
        · intro hnone
          dsimp only at hnone
          omega
        · intro lease hlease hunreleased
          rcases List.mem_append.mp hlease with hlease | hlease
          · exact .inr ⟨lease, hlease, hunreleased, rfl⟩
          · obtain rfl := List.mem_singleton.mp hlease
            rw [hsnapshot]
            exact .inl (mem_snapshotTransports hroute)
  · rename_i c' error heq
    have hsame : c' = c := by
      split at heq
      · exact (Prod.mk.inj heq).1.symm
      · split at heq
        · exact (Prod.mk.inj heq).1.symm
        · simp at heq
    subst hsame
    exact hrefused error

omit [DecidableEq τ] in
/-- Moving one lease changes nothing about the others. -/
lemma exists_unreleased_of_set {lease : ℕ} {transport : τ} {phase phase' : LeasePhase}
    (hlease : c.leases[lease]? = some ⟨transport, phase⟩) (hphase : phase ≠ .released)
    {other : CatalogLease τ} (hother : other ∈ c.leases.set lease ⟨transport, phase'⟩)
    (hunreleased : other.isUnreleased = true) :
    ∃ lease' ∈ c.leases, lease'.isUnreleased = true ∧ lease'.transport = other.transport := by
  rcases List.mem_or_eq_of_mem_set hother with hmem | rfl
  · exact ⟨other, hmem, hunreleased, rfl⟩
  · exact ⟨_, List.mem_of_getElem? hlease, by simpa [CatalogLease.isUnreleased] using hphase, rfl⟩

lemma sound_release (h : Sound events c) (lease : ℕ) : Sound (events ++ []) (c.release lease) := by
  unfold Catalog.release
  split
  · rename_i transport hlease
    refine h.of_same rfl rfl rfl rfl rfl rfl ?_ h.notified (fun _ _ _ _ hmem => hmem)
      fun other hother hunreleased =>
        .inr (exists_unreleased_of_set hlease LeasePhase.noConfusion hother hunreleased)
    have hmoved := countP_set hlease CatalogLease.isUnreleased ⟨transport, .releasing⟩
    rw [contribution_of_true rfl, contribution_of_true rfl, ← h.counted] at hmoved
    exact (Nat.add_right_cancel hmoved).symm
  · rw [List.append_nil]
    exact h

omit [DecidableEq τ] in
lemma remaining_notify (revocation : Revocation τ) :
    revocation.notify.remaining = revocation.remaining := by
  cases revocation <;> rfl

/-- The token of a lease is given back once; the last one to come back notifies. -/
lemma sound_giveBack (h : Sound events c) (lease : ℕ) :
    Sound (events ++ []) (c.giveBack lease) := by
  unfold Catalog.giveBack
  split
  · rename_i transport hlease
    have hmoved := countP_set hlease CatalogLease.isUnreleased ⟨transport, .released⟩
    rw [contribution_of_true rfl, contribution_of_false rfl, ← h.counted] at hmoved
    unfold Catalog.releaseToken
    dsimp only
    rw [if_neg (by omega)]
    refine h.of_same rfl rfl rfl rfl rfl ?_ ?_ ?_ ?_ fun other hother hunreleased =>
      .inr (exists_unreleased_of_set hlease LeasePhase.noConfusion hother hunreleased)
    · dsimp only
      split
      · rw [List.flatMap_map]
        exact congrArg (fun f => c.revocations.flatMap f) (funext remaining_notify)
      · rfl
    · dsimp only
      omega
    · intro hnone replacement hmem
      dsimp only at hnone hmem
      rw [if_pos hnone] at hmem
      obtain ⟨revocation, -, hwaiting⟩ := List.mem_map.mp hmem
      cases revocation <;> simp [Revocation.notify] at hwaiting
    · intro transports retired count errors hmem
      dsimp only at hmem
      split at hmem
      · obtain ⟨revocation, hrevocation, hretiring⟩ := List.mem_map.mp hmem
        cases revocation with
        | retiring => exact hretiring ▸ hrevocation
        | _ => simp [Revocation.notify] at hretiring
      · exact hmem
  · rw [List.append_nil]
    exact h

omit [DecidableEq τ] in
@[simp] lemma publishedSnapshot_replace (replacement : Option (MCPToolCatalogSnapshot τ)) :
    (c.replace replacement).publishedSnapshot = replacement := by
  cases replacement <;> rfl

omit [DecidableEq τ] in
@[simp] lemma leases_replace (replacement : Option (MCPToolCatalogSnapshot τ)) :
    (c.replace replacement).leases = c.leases := by
  cases replacement <;> rfl

omit [DecidableEq τ] in
@[simp] lemma activeTokens_replace (replacement : Option (MCPToolCatalogSnapshot τ)) :
    (c.replace replacement).activeTokens = c.activeTokens := by
  cases replacement <;> rfl

/-- A revocation that finds no token active takes the published snapshot out. -/
lemma sound_replaced (h : Sound events c) {c' : Catalog τ} (hnone : c.activeTokens = 0)
    (replacement : Option (MCPToolCatalogSnapshot τ))
    (hsnapshot : c'.publishedSnapshot = replacement) (hleases : c'.leases = c.leases)
    (hactive : c'.activeTokens = c.activeTokens)
    (hremaining : ∀ t, (c'.revocations.flatMap Revocation.remaining).count t =
      (c.revocations.flatMap Revocation.remaining).count t +
        (snapshotTransports c.publishedSnapshot).count t)
    (hrevocations : ∀ revocation ∈ c'.revocations,
      revocation ∈ c.revocations ∨ revocation = c.retiringOld) :
    Sound (events ++ replaceEvents c replacement) c' := by
  obtain ⟨hpublished, hoverwritten, hrevoked, hretired⟩ := transports_replaceEvents c replacement
  constructor
  case counted => rw [hactive, hleases, h.counted]
  case notified =>
    intro _ other hother
    rcases hrevocations _ hother with hmem | hloop
    · exact h.notified hnone other hmem
    · simp [Catalog.retiringOld] at hloop
  case placed =>
    intro t
    have hplaced := h.placed t
    rw [publishedTransports_append, overwrittenTransports_append, revokedTransports_append,
      hpublished, hoverwritten, hrevoked, hsnapshot]
    simp only [List.count_append, List.append_nil]
    omega
  case retiring =>
    intro t
    have hretiring := h.retiring t
    have hmore := hremaining t
    rw [revokedTransports_append, retiredTransports_append, hrevoked, hretired, List.append_nil,
      List.count_append]
    omega
  case retired =>
    intro transports retired count errors hmem
    rw [retiredTransports_append, hretired, List.append_nil]
    rcases hrevocations _ hmem with hold | hloop
    · exact h.retired transports retired count errors hold
    · obtain ⟨-, rfl, -, -⟩ := Revocation.retiring.inj hloop
      simp
  case leased =>
    intro lease hlease hunreleased
    rw [hleases] at hlease
    simp [h.released hnone lease hlease] at hunreleased

/-- A revocation that waits or goes on waiting. -/
lemma sound_waiting (h : Sound events c) {c' : Catalog τ} (hactive : c.activeTokens ≠ 0)
    (hsnapshot : c'.publishedSnapshot = c.publishedSnapshot) (hleases : c'.leases = c.leases)
    (htokens : c'.activeTokens = c.activeTokens)
    (hremaining : c'.revocations.flatMap Revocation.remaining =
      c.revocations.flatMap Revocation.remaining)
    (hloops : ∀ transports retired count errors,
      .retiring transports retired count errors ∈ c'.revocations →
      .retiring transports retired count errors ∈ c.revocations) :
    Sound (events ++ []) c' := by
  refine h.of_same rfl rfl rfl rfl hsnapshot hremaining ?_ ?_ hloops ?_
  · rw [htokens, hleases, h.counted]
  · exact fun hnone => absurd (htokens ▸ hnone) hactive
  · intro lease hlease hunreleased
    exact .inr ⟨lease, hleases ▸ hlease, hunreleased, rfl⟩

lemma sound_revoke (h : Sound events c) (replacement : Option (MCPToolCatalogSnapshot τ)) :
    Sound (events ++ (catalogLifecycle c (.revoke replacement)).2)
      (catalogLifecycle c (.revoke replacement)).1 := by
  unfold catalogLifecycle Catalog.revoke
  dsimp only
  by_cases hnone : c.activeTokens = 0
  · rw [if_pos hnone, if_pos hnone]
    refine sound_replaced h hnone replacement (by simp) (by simp) (by simp) ?_ ?_
    · intro t
      dsimp only
      rw [List.flatMap_append, List.count_append, List.flatMap_singleton]
      rfl
    · intro revocation hmem
      rcases List.mem_append.mp hmem with hmem | hmem
      · exact .inl hmem
      · exact .inr (List.mem_singleton.mp hmem)
  · rw [if_neg hnone, if_neg hnone]
    refine sound_waiting h hnone rfl rfl rfl ?_ ?_
    · dsimp only
      rw [List.flatMap_append, List.flatMap_singleton]
      exact List.append_nil _
    · intro transports retired count errors hmem
      rcases List.mem_append.mp hmem with hmem | hmem
      · exact hmem
      · simp at hmem

lemma sound_wake (h : Sound events c) (revocation : ℕ) :
    Sound (events ++ (catalogLifecycle c (.wake revocation)).2)
      (catalogLifecycle c (.wake revocation)).1 := by
  unfold catalogLifecycle
  dsimp only
  split
  · rename_i replacement hrevocation
    unfold Catalog.wake
    by_cases hnone : c.activeTokens = 0
    · rw [if_pos hnone, if_pos hnone]
      refine sound_replaced h hnone replacement (by simp) (by simp) (by simp) ?_ ?_
      · intro t
        have hmoved := count_flatMap_set hrevocation Revocation.remaining c.retiringOld t
        exact hmoved
      · intro other hmem
        rcases List.mem_or_eq_of_mem_set hmem with hmem | rfl
        · exact .inl hmem
        · exact .inr rfl
    · rw [if_neg hnone, if_neg hnone]
      refine sound_waiting h hnone rfl rfl rfl ?_ ?_
      · exact flatMap_set_of_eq hrevocation rfl
      · intro transports retired count errors hmem
        rcases List.mem_or_eq_of_mem_set hmem with hmem | hwaiting
        · exact hmem
        · simp at hwaiting
  · rw [List.append_nil]
    exact h

/-- A transport that is to be retired is in no other place. -/
lemma Sound.remaining_alone (h : Sound events c) (hfresh : FreshTransports events)
    {revocation : ℕ} {phase : Revocation τ} (hphase : c.revocations[revocation]? = some phase)
    {t : τ} (ht : t ∈ phase.remaining) :
    t ∉ snapshotTransports c.publishedSnapshot ∧ t ∉ overwrittenTransports events ∧
      t ∉ retiredTransports events := by
  have hremaining : 0 < (c.revocations.flatMap Revocation.remaining).count t :=
    List.count_pos_iff.mpr (List.mem_flatMap.mpr ⟨phase, List.mem_of_getElem? hphase, ht⟩)
  have hle := hfresh.count_le_one t
  have hplaced := h.placed t
  have hretiring := h.retiring t
  refine ⟨fun hmem => ?_, fun hmem => ?_, fun hmem => ?_⟩
  all_goals
    have hpos := List.count_pos_iff.mpr hmem
    omega

/-- A turn of a loop calls `retire_transport` with the next transport. -/
lemma retireNext_cons (h : Sound events c) (hfresh : FreshTransports events) {revocation : ℕ}
    {transport : τ} {transports retired : List τ} {count : ℕ} {errors : List String}
    (hphase : c.revocations[revocation]? =
      some (.retiring (transport :: transports) retired count errors)) (error : Option String) :
    ∃ count' errors', Revocation.retireNext error
      (.retiring (transport :: transports) retired count errors) =
        (.retiring transports (retired ++ [transport]) count' errors', [.retired transport]) := by
  have hnew : transport ∉ retired := fun hmem =>
    (h.remaining_alone hfresh hphase List.mem_cons_self).2.2
      (h.retired _ _ _ _ (List.mem_of_getElem? hphase) transport hmem)
  dsimp only [Revocation.retireNext]
  rw [if_neg hnew]
  cases error with
  | none => exact ⟨_, _, rfl⟩
  | some text => exact ⟨_, _, rfl⟩

lemma sound_retire (h : Sound events c) (hfresh : FreshTransports events) (revocation : ℕ)
    (error : Option String) :
    Sound (events ++ (catalogLifecycle c (.retire revocation error)).2)
      (catalogLifecycle c (.retire revocation error)).1 := by
  unfold catalogLifecycle
  dsimp only
  split
  · rename_i phase hphase
    have hmem := List.mem_of_getElem? hphase
    -- a revocation that does not retire stays as it is
    have hsame : phase.retireNext error = (phase, []) →
        Sound (events ++ (phase.retireNext error).2)
          { c with revocations := c.revocations.set revocation (phase.retireNext error).1 } := by
      intro hnext
      rw [hnext]
      have hset : ∀ other ∈ c.revocations.set revocation phase, other ∈ c.revocations := by
        intro other hother
        rcases List.mem_or_eq_of_mem_set hother with hother | rfl
        · exact hother
        · exact hmem
      exact h.of_same rfl rfl rfl rfl rfl (flatMap_set_of_eq hphase rfl) h.counted
        (fun hnone replacement hother => h.notified hnone replacement (hset _ hother))
        (fun _ _ _ _ hother => hset _ hother)
        fun lease hlease hunreleased => .inr ⟨lease, hlease, hunreleased, rfl⟩
    cases phase with
    | waiting replacement => exact hsame rfl
    | notified replacement => exact hsame rfl
    | done outcome => exact hsame rfl
    | retiring transports retired count errors =>
      cases transports with
      | nil =>
        obtain ⟨hpublished, hoverwritten, hrevoked, hretired⟩ :=
          transports_of_other (τ := τ) (.inr (.inr ⟨_, rfl⟩))
        refine h.of_same hpublished hoverwritten hrevoked hretired rfl
          (flatMap_set_of_eq hphase rfl) h.counted ?_ ?_
          fun lease hlease hunreleased => .inr ⟨lease, hlease, hunreleased, rfl⟩
        · intro hnone replacement hother
          rcases List.mem_or_eq_of_mem_set hother with hother | hdone
          · exact h.notified hnone replacement hother
          · simp [Revocation.retireNext] at hdone
        · intro _ _ _ _ hother
          rcases List.mem_or_eq_of_mem_set hother with hother | hdone
          · exact hother
          · simp [Revocation.retireNext] at hdone
      | cons transport transports =>
        obtain ⟨count', errors', hnext⟩ := retireNext_cons h hfresh hphase error
        rw [hnext]
        have hmoved := count_flatMap_set hphase Revocation.remaining
          (.retiring transports (retired ++ [transport]) count' errors')
        have hevents : publishedTransports [CatalogEvent.retired transport] = [] ∧
            overwrittenTransports [CatalogEvent.retired transport] = [] ∧
            revokedTransports [CatalogEvent.retired transport] = [] ∧
            retiredTransports [CatalogEvent.retired transport] = [transport] :=
          ⟨rfl, rfl, rfl, rfl⟩
        obtain ⟨hpublished, hoverwritten, hrevoked, hretired⟩ := hevents
        constructor
        case counted => exact h.counted
        case notified =>
          intro hnone replacement hother
          rcases List.mem_or_eq_of_mem_set hother with hother | hloop
          · exact h.notified hnone replacement hother
          · simp at hloop
        case placed =>
          intro t
          rw [publishedTransports_append, overwrittenTransports_append, revokedTransports_append,
            hpublished, hoverwritten, hrevoked, List.append_nil, List.append_nil, List.append_nil]
          exact h.placed t
        case retiring =>
          intro t
          have hretiring := h.retiring t
          have hm := hmoved t
          dsimp only [Revocation.remaining] at hm ⊢
          rw [List.count_cons] at hm
          rw [revokedTransports_append, retiredTransports_append, hrevoked, hretired,
            List.append_nil, List.count_append, List.count_singleton]
          omega
        case retired =>
          intro transports' retired' count'' errors'' hother t ht
          rw [retiredTransports_append, hretired, List.mem_append]
          rcases List.mem_or_eq_of_mem_set hother with hother | hloop
          · exact .inl (h.retired _ _ _ _ hother t ht)
          · obtain ⟨-, rfl, -, -⟩ := Revocation.retiring.inj hloop
            rcases List.mem_append.mp ht with ht | ht
            · exact .inl (h.retired _ _ _ _ hmem t ht)
            · exact .inr ht
        case leased =>
          rw [overwrittenTransports_append, hoverwritten, List.append_nil]
          exact h.leased
  · rw [List.append_nil]
    exact h

/-- One operation. -/
theorem sound_step (h : Sound events c) (hfresh : FreshTransports events) (op : CatalogOp τ) :
    Sound (events ++ (catalogLifecycle c op).2) (catalogLifecycle c op).1 := by
  cases op with
  | publish snapshot => exact sound_publish h snapshot
  | acquire toolName => exact sound_acquire h toolName
  | release lease => exact sound_release h lease
  | giveBack lease => exact sound_giveBack h lease
  | revoke replacement => exact sound_revoke h replacement
  | wake revocation => exact sound_wake h revocation
  | retire revocation error => exact sound_retire h hfresh revocation error

omit [DecidableEq τ] in
lemma mem_retiredTransports {t : τ} : .retired t ∈ events ↔ t ∈ retiredTransports events := by
  unfold retiredTransports
  rw [List.mem_filterMap]
  constructor
  · exact fun hmem => ⟨_, hmem, rfl⟩
  · rintro ⟨event, hmem, hevent⟩
    cases event with
    | retired transport =>
      obtain rfl := Option.some.inj hevent
      exact hmem
    | _ => simp at hevent

/-- Only the loop of a revocation retires transports. -/
lemma exists_remaining_of_retired {op : CatalogOp τ} {t : τ}
    (hretired : .retired t ∈ (catalogLifecycle c op).2) :
    ∃ (revocation : ℕ) (phase : Revocation τ), c.revocations[revocation]? = some phase ∧
      t ∈ phase.remaining := by
  rw [mem_retiredTransports] at hretired
  cases op with
  | publish snapshot =>
    change t ∈ retiredTransports ((c.publishedSnapshot.map .overwritten).toList ++ _) at hretired
    rw [(transports_publish c.publishedSnapshot snapshot).2.2.2] at hretired
    simp at hretired
  | acquire toolName =>
    unfold catalogLifecycle at hretired
    dsimp only at hretired
    split at hretired <;> simp [retiredTransports] at hretired
  | release lease => simp [catalogLifecycle, retiredTransports] at hretired
  | giveBack lease => simp [catalogLifecycle, retiredTransports] at hretired
  | revoke replacement =>
    unfold catalogLifecycle at hretired
    dsimp only at hretired
    split at hretired
    · rw [(transports_replaceEvents c replacement).2.2.2] at hretired
      simp at hretired
    · simp [retiredTransports] at hretired
  | wake revocation =>
    unfold catalogLifecycle at hretired
    dsimp only at hretired
    split at hretired
    · rename_i replacement _
      split at hretired
      · rw [(transports_replaceEvents c replacement).2.2.2] at hretired
        simp at hretired
      · simp [retiredTransports] at hretired
    · simp [retiredTransports] at hretired
  | retire revocation error =>
    unfold catalogLifecycle at hretired
    dsimp only at hretired
    split at hretired
    · rename_i phase hphase
      refine ⟨revocation, phase, hphase, ?_⟩
      unfold Revocation.retireNext at hretired
      split at hretired
      · simp [retiredTransports] at hretired
      · split at hretired
        · simp [retiredTransports] at hretired
        · obtain rfl : t = _ := by simpa [retiredTransports] using hretired
          exact List.mem_cons_self
      · simp [retiredTransports] at hretired
    · simp [retiredTransports] at hretired

/-- An operation that retires a transport finds every lease on it released. -/
lemma released_of_retired (h : Sound events c) (hfresh : FreshTransports events)
    {op : CatalogOp τ} {t : τ} (hretired : .retired t ∈ (catalogLifecycle c op).2) :
    ∀ lease ∈ c.leases, lease.transport = t → lease.isUnreleased = false := by
  obtain ⟨revocation, phase, hphase, ht⟩ := exists_remaining_of_retired hretired
  obtain ⟨hcurrent, hoverwritten, -⟩ := h.remaining_alone hfresh hphase ht
  rintro lease hlease rfl
  by_contra hunreleased
  rcases h.leased lease hlease (by simpa using hunreleased) with hmem | hmem
  · exact hcurrent hmem
  · exact hoverwritten hmem

/-! ### Runs -/

/-- What happens in the course of the operations. -/
def catalogEvents (ops : List (CatalogOp τ)) : List (CatalogEvent τ) :=
  ((catalogLifecycle (τ := τ)).answers {} ops).flatten

lemma sound_after {ops : List (CatalogOp τ)} (hfresh : FreshTransports (catalogEvents ops)) :
    Sound (catalogEvents ops) (catalogLifecycle.after {} ops) := by
  -- by induction on the run, its last operation taken off
  induction ops using List.reverseRecOn with
  | nil => exact sound_empty
  | append_singleton ops op ih =>
    have hevents : catalogEvents (ops ++ [op]) =
        catalogEvents ops ++ (catalogLifecycle (catalogLifecycle.after {} ops) op).2 := by
      unfold catalogEvents
      rw [System.answers_append, List.flatten_append]
      simp
    rw [hevents] at hfresh ⊢
    rw [System.after_append]
    exact sound_step (ih hfresh.of_append) hfresh.of_append op

/-- Tokens are counted, no transport is retired twice, and every transport that was published is
one of the published snapshot or of an overwritten one, or has been retired by the revocation
that took its snapshot out, or is about to be.  A revocation is left waiting only while a token
is active. -/
structure TransportsKept (events : List (CatalogEvent τ)) (c : Catalog τ) : Prop where
  counted : c.activeTokens = c.leases.countP CatalogLease.isUnreleased
  retiredOnce : (retiredTransports events).Nodup
  placed : ∀ t ∈ publishedTransports events, t ∈ snapshotTransports c.publishedSnapshot ∨
    t ∈ overwrittenTransports events ∨ t ∈ revokedTransports events
  revoked : ∀ t ∈ revokedTransports events, t ∈ retiredTransports events ∨
    ∃ revocation ∈ c.revocations, t ∈ revocation.remaining
  notified : c.activeTokens = 0 → ∀ replacement, .waiting replacement ∉ c.revocations

lemma Sound.transportsKept (h : Sound events c) (hfresh : FreshTransports events) :
    TransportsKept events c := by
  constructor
  case counted => exact h.counted
  case retiredOnce =>
    refine List.nodup_iff_count.mpr fun t => ?_
    have hle := hfresh.count_le_one t
    have hplaced := h.placed t
    have hretiring := h.retiring t
    omega
  case placed =>
    intro t ht
    have hpos := List.count_pos_iff.mpr ht
    rw [h.placed t] at hpos
    by_contra hnone
    rw [not_or, not_or] at hnone
    obtain ⟨hcurrent, hoverwritten, hrevoked⟩ := hnone
    rw [List.count_eq_zero.mpr hcurrent, List.count_eq_zero.mpr hoverwritten,
      List.count_eq_zero.mpr hrevoked] at hpos
    exact absurd hpos (by decide)
  case revoked =>
    intro t ht
    have hpos := List.count_pos_iff.mpr ht
    rw [h.retiring t] at hpos
    by_cases hretired : t ∈ retiredTransports events
    · exact .inl hretired
    · rw [List.count_eq_zero.mpr hretired, Nat.add_zero] at hpos
      exact .inr (List.mem_flatMap.mp (List.count_pos_iff.mp hpos))
  case notified => exact h.notified

/-- In every run of publications, acquisitions, releases and revocations whose snapshots come
with transports of their own, tokens and transports are kept as they should be; and when a
transport is retired, every lease on it has been released. -/
theorem transports_kept (ops : List (CatalogOp τ)) (hfresh : FreshTransports (catalogEvents ops)) :
    TransportsKept (catalogEvents ops) (catalogLifecycle.after {} ops) ∧
      ∀ ops₁ op ops₂, ops = ops₁ ++ op :: ops₂ →
        ∀ t, .retired t ∈ (catalogLifecycle (catalogLifecycle.after {} ops₁) op).2 →
        ∀ lease ∈ (catalogLifecycle.after {} ops₁).leases, lease.transport = t →
          lease.isUnreleased = false := by
  refine ⟨(sound_after hfresh).transportsKept hfresh, ?_⟩
  rintro ops₁ op ops₂ rfl t hretired
  have hbefore : FreshTransports (catalogEvents ops₁) := by
    unfold catalogEvents at hfresh ⊢
    rw [System.answers_append, List.flatten_append] at hfresh
    exact hfresh.of_append
  exact released_of_retired (sound_after hbefore) hbefore hretired

/-- A snapshot with one tool. -/
def singleRoute (transport : ℕ) : MCPToolCatalogSnapshot ℕ where
  bindingsByMcp := [("mcp", some ⟨some transport⟩)]
  routesByTool := [("tool", ⟨"mcp", transport, []⟩)]

/-- A revocation waits for a token whose lease is released twice. -/
def drainedRun : List (CatalogOp ℕ) :=
  [.publish (singleRoute 1), .acquire "tool", .revoke (some (singleRoute 2)), .acquire "tool",
    .release 0, .release 0, .giveBack 0, .wake 0, .acquire "tool", .retire 0 (some "closed"),
    .retire 0 none]

theorem transports_kept_drainedRun :
    retiredTransports (catalogEvents drainedRun) = [1] ∧
      TransportsKept (catalogEvents drainedRun) (catalogLifecycle.after {} drainedRun) :=
  ⟨by decide, (transports_kept drainedRun (by unfold FreshTransports; decide)).1⟩

/-- A snapshot is published in the place of another one, and nobody uses either of them. -/
def overwrittenRun : List (CatalogOp ℕ) :=
  [.publish (singleRoute 1), .acquire "tool", .publish (singleRoute 2), .release 0, .giveBack 0,
    .revoke none, .retire 0 none, .retire 0 none]

/-- The transport of a snapshot that `publish_catalog` has replaced is not retired, whoever has
released it. -/
theorem overwritten_not_retired :
    ¬ ∀ ops : List (CatalogOp ℕ), FreshTransports (catalogEvents ops) →
      ∀ t ∈ publishedTransports (catalogEvents ops),
        t ∉ snapshotTransports (catalogLifecycle.after {} ops).publishedSnapshot →
        (∀ lease ∈ (catalogLifecycle.after {} ops).leases, lease.transport = t →
          lease.isUnreleased = false) →
        (∀ revocation ∈ (catalogLifecycle.after {} ops).revocations,
          ∃ outcome, revocation = .done outcome) →
        t ∈ retiredTransports (catalogEvents ops) := by
  intro hall
  have hfresh : FreshTransports (catalogEvents overwrittenRun) := by
    unfold FreshTransports
    decide
  have hretired := hall overwrittenRun hfresh 1 (by decide) (by decide) (by decide) ?_
  · exact absurd hretired (by decide)
  · intro revocation hrevocation
    obtain rfl : revocation = .done (.ok 1) := List.mem_singleton.mp hrevocation
    exact ⟨_, rfl⟩

end Trion.Mcp
