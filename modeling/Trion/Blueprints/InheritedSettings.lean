import Trion.Blueprints.Inheritance
import Trion.Library.Layers

/-!
# What a blueprint inherits

Along a chain of references the settings of a blueprint come before those of what it extends.
The merge leaves the image digest and the exec allow-list of the last blueprint of the chain,
takes the resources and the icon of the first one in any case, and keeps the mounts and secrets
of parents where a child has its own for the same path or name.
-/

namespace Trion.Blueprints

open Trion.Python OrderedDict Layers

variable {rt : PyRuntime} {order : SetOrder} {s : Store} {i : String} {b : Blueprint}
  {rest : List Blueprint}

/-! ### The digest policy -/

/-- What `check_digest_policy` returns. -/
structure DigestCheck where
  allowed : Bool
  mode : String
  actualDigest : Option String
  reason : String
deriving DecidableEq, Repr

/-- `check_digest_policy`; `resolveImageDigest` asks Docker. -/
def checkDigestPolicy (resolveImageDigest : String → Option String) (b : Blueprint) :
    DigestCheck :=
  let imageRef := b.image.getD ""
  let pinned := b.imageDigest.getD ""
  if imageRef = "" then
    ⟨true, "no_image", none, "Dockerfile-basierter Blueprint — kein Image-Digest-Check"⟩
  else if pinned = "" then
    let actual := resolveImageDigest imageRef
    ⟨true, "unpinned_warn", actual, "[Trust-Warn] Blueprint '" ++ b.id ++
      "' hat keinen gepinnten Digest — Image '" ++ imageRef ++
      "' wird ohne Digest-Verifikation gestartet (aktueller Digest: " ++
      orElse (actual.getD "") "nicht auflösbar" ++ ")"⟩
  else
    match resolveImageDigest imageRef with
    | none => ⟨false, "pinned_strict", none, "[Trust-Block] Image '" ++ imageRef ++
        "' Digest nicht auflösbar — erwartet: " ++ pinned ++ ". Start blockiert (fail closed)."⟩
    | some actual =>
      if strip actual ≠ strip pinned then
        ⟨false, "pinned_strict", some actual, "[Trust-Block] Image Digest mismatch für '" ++
          imageRef ++ "': erwartet=" ++ pinned ++ ", gefunden=" ++ actual ++
          ". Start blockiert."⟩
      else
        ⟨true, "pinned_strict", some actual, "[Trust-OK] Image '" ++ imageRef ++
          "' Digest verifiziert: " ++ actual⟩

/-- An image with a pinned digest is allowed only if Docker resolves it to this digest. -/
lemma digest_of_allowed {resolveImageDigest : String → Option String}
    (h : (checkDigestPolicy resolveImageDigest b).allowed = true) (himage : b.image.getD "" ≠ "")
    {digest : String} (hdigest : b.imageDigest = some digest) (hne : digest ≠ "") :
    ∃ actual, resolveImageDigest (b.image.getD "") = some actual ∧ strip actual = strip digest := by
  unfold checkDigestPolicy at h
  dsimp only at h
  rw [if_neg himage, hdigest, Option.getD_some, if_neg hne] at h
  split at h
  · simp at h
  · rename_i actual hactual
    refine ⟨actual, hactual, ?_⟩
    by_contra hdiff
    rw [if_pos hdiff] at h
    simp at h

/-! ### Chains -/

/-- The blueprints that are read on the way from an id along the references: the first one and
those after it. -/
inductive Chain (rt : PyRuntime) (s : Store) : String → Blueprint → List Blueprint → Prop
  | root {i : String} {b : Blueprint} : s.getBlueprint rt i = .ok (some b) →
      b.extendsId.getD "" = "" → Chain rt s i b []
  | dangling {i j : String} {b : Blueprint} : s.getBlueprint rt i = .ok (some b) →
      b.extendsId = some j → j ≠ "" → s.getBlueprint rt j = .ok none → Chain rt s i b []
  | link {i j : String} {b parent : Blueprint} {rest : List Blueprint} :
      s.getBlueprint rt i = .ok (some b) → b.extendsId = some j → j ≠ "" →
      Chain rt s j parent rest → Chain rt s i b (parent :: rest)

/-- The blueprints of a chain, merged. -/
def mergeChain (order : SetOrder) : Blueprint → List Blueprint → Blueprint
  | b, [] => b
  | b, parent :: rest => merge order b (mergeChain order parent rest)

/-- A chain is resolved to its blueprints, merged. -/
theorem resolve_chain (h : Chain rt s i b rest) {depth : ℕ} (hdepth : rest.length + 2 ≤ depth) :
    resolveBlueprint rt order s depth i = .ok (some (mergeChain order b rest)) := by
  obtain ⟨depth, rfl⟩ : ∃ d, depth = d + 1 := ⟨depth - 1, by omega⟩
  induction h generalizing depth with
  | root hb hroot =>
    unfold resolveBlueprint
    rw [hb]
    exact if_pos hroot
  | @dangling i j b hb hextends hne hnone =>
    obtain ⟨depth, rfl⟩ : ∃ d, depth = d + 1 := ⟨depth - 1, by simp at hdepth; omega⟩
    have hparent : resolveBlueprint rt order s (depth + 1) j = .ok none := by
      unfold resolveBlueprint
      rw [hnone]
    unfold resolveBlueprint
    rw [hb]
    dsimp only
    rw [hextends, Option.getD_some, if_neg hne, hparent]
    rfl
  | link hb hextends hne _ ih =>
    rw [List.length_cons] at hdepth
    obtain ⟨depth, rfl⟩ : ∃ d, depth = d + 1 := ⟨depth - 1, by omega⟩
    have hparent := ih depth (by omega)
    unfold resolveBlueprint
    rw [hb]
    dsimp only
    rw [hextends, Option.getD_some, if_neg hne, hparent]
    rfl

/-! ### Settings -/

/-- The blueprint sets an image or a digest. -/
def Blueprint.pins (b : Blueprint) : Bool := b.image.getD "" != "" || b.imageDigest.isSome

/-- The digest that comes with the image: that of the first blueprint that sets one of both. -/
def pinnedDigest (chain : List Blueprint) : Option String :=
  (chain.find? Blueprint.pins).bind (·.imageDigest)

/-- A resolved blueprint has the settings of the first blueprint of the chain that makes them,
the items of a keyed field key by key; an image comes with its digest, which is enforced.  The
times of creation and change are no settings. -/
structure KeepsSettings (b : Blueprint) (rest : List Blueprint) (r : Blueprint) : Prop where
  id : r.id = b.id
  name : r.name = b.name
  icon : r.icon = firstSet "📦" ((b :: rest).map (·.icon))
  description : r.description = firstSet "" ((b :: rest).map (·.description))
  dockerfile : r.dockerfile = firstSet "" ((b :: rest).map (·.dockerfile))
  image : r.image.getD "" = firstSet "" ((b :: rest).map (·.image.getD ""))
  imageDigest : r.imageDigest = pinnedDigest (b :: rest)
  systemPrompt : r.systemPrompt = firstSet "" ((b :: rest).map (·.systemPrompt))
  resources : r.resources = firstSet {} ((b :: rest).map (·.resources))
  secretsRequired : ∀ name, itemsOf (·.name) name r.secretsRequired =
    firstItems (·.name) name ((b :: rest).map (·.secretsRequired))
  mounts : ∀ container, itemsOf (·.container) container r.mounts =
    firstItems (·.container) container ((b :: rest).map (·.mounts))
  storageScope : r.storageScope = firstSet "" ((b :: rest).map (·.storageScope))
  ports : r.ports = firstSet [] ((b :: rest).map (·.ports))
  runtime : r.runtime = firstSet "" ((b :: rest).map (·.runtime))
  devices : r.devices = firstSet [] ((b :: rest).map (·.devices))
  hardwareIntents : ∀ key, itemsOf (·.key) key r.hardwareIntents =
    firstItems (·.key) key ((b :: rest).map (·.hardwareIntents))
  environment : ∀ key, get? r.environment key = (b :: rest).findSome? (get? ·.environment key)
  healthcheck : ∀ key, get? r.healthcheck key = (b :: rest).findSome? (get? ·.healthcheck key)
  preStartExec : r.preStartExec = firstSet none ((b :: rest).map (·.preStartExec))
  capAdd : r.capAdd = firstSet [] ((b :: rest).map (·.capAdd))
  securityOpt : r.securityOpt = firstSet [] ((b :: rest).map (·.securityOpt))
  capDrop : r.capDrop = firstSet [] ((b :: rest).map (·.capDrop))
  privileged : r.privileged = firstSet false ((b :: rest).map (·.privileged))
  readOnlyRootfs : r.readOnlyRootfs = firstSet false ((b :: rest).map (·.readOnlyRootfs))
  shmSize : r.shmSize = firstSet "" ((b :: rest).map (·.shmSize))
  ipcMode : r.ipcMode = firstSet "" ((b :: rest).map (·.ipcMode))
  network : r.network = firstSet .internal ((b :: rest).map (·.network))
  allowedExec : r.allowedExec = firstSet [] ((b :: rest).map (·.allowedExec))
  tags : ∀ tag, tag ∈ r.tags ↔ ∃ c ∈ b :: rest, tag ∈ c.tags
  enforced : ∀ resolveImageDigest digest, (checkDigestPolicy resolveImageDigest r).allowed = true →
    b.image.getD "" ≠ "" → b.imageDigest = some digest → digest ≠ "" →
      ∃ actual, resolveImageDigest (b.image.getD "") = some actual ∧ strip actual = strip digest

/-- Where the merge takes a setting from another blueprint than the first one that makes it,
both agree. -/
structure SettingsAgree (b : Blueprint) (rest : List Blueprint) : Prop where
  imageDigest : pinnedDigest (b :: rest) = (rest.getLastD b).imageDigest
  allowedExec : firstSet [] ((b :: rest).map (·.allowedExec)) = (rest.getLastD b).allowedExec
  resources : firstSet {} ((b :: rest).map (·.resources)) = b.resources
  icon : firstSet "📦" ((b :: rest).map (·.icon)) = b.icon
  mounts : ∀ container, firstItems (·.container) container ((b :: rest).map (·.mounts)) =
    lastItems (·.container) container ((b :: rest).map (·.mounts))
  secretsRequired : ∀ name, firstItems (·.name) name ((b :: rest).map (·.secretsRequired)) =
    lastItems (·.name) name ((b :: rest).map (·.secretsRequired))

/-! ### What the merge takes -/

/-- A field that the child sets unless its value is the default. -/
lemma mergeChain_firstSet {α : Type} [DecidableEq α] {f : Blueprint → α} {default : α}
    (h : ∀ b parent, f (merge order b parent) = if f b = default then f parent else f b) :
    f (mergeChain order b rest) = firstSet default ((b :: rest).map f) := by
  induction rest generalizing b with
  | nil => exact firstSet_singleton.symm
  | cons parent rest ih =>
    show f (merge order b (mergeChain order parent rest)) = _
    rw [List.map_cons, firstSet_cons, h, ih]

/-- A field that is the child's. -/
lemma mergeChain_head {α : Type} {f : Blueprint → α}
    (h : ∀ b parent, f (merge order b parent) = f b) : f (mergeChain order b rest) = f b := by
  cases rest with
  | nil => rfl
  | cons parent rest => exact h b _

/-- A field that is the parent's. -/
lemma mergeChain_last {α : Type} {f : Blueprint → α}
    (h : ∀ b parent, f (merge order b parent) = f parent) :
    f (mergeChain order b rest) = f (rest.getLastD b) := by
  induction rest generalizing b with
  | nil => rfl
  | cons parent rest ih =>
    show f (merge order b (mergeChain order parent rest)) = _
    rw [h, ih]
    cases rest <;> rfl

/-- A map whose entries are the child's where it has them. -/
lemma mergeChain_map {β : Type} {f : Blueprint → List (String × β)}
    (h : ∀ b parent, f (merge order b parent) = OrderedDict.merge (f parent) (f b)) (key : String) :
    get? (f (mergeChain order b rest)) key = (b :: rest).findSome? fun c => get? (f c) key := by
  induction rest generalizing b with
  | nil => cases hget : get? (f b) key <;> simp [mergeChain, hget]
  | cons parent rest ih =>
    show get? (f (merge order b (mergeChain order parent rest))) key = _
    rw [List.findSome?_cons, h, get?_merge, ih]
    cases get? (f b) key <;> rfl

/-- A keyed field whose items are the child's where it has some of the key. -/
lemma mergeChain_firstItems {α κ : Type} [DecidableEq κ] {f : Blueprint → List α} {key : α → κ}
    (h : ∀ b parent, f (merge order b parent) =
      (f parent).filter (fun x => key x ∉ (f b).map key) ++ f b) (k : κ) :
    itemsOf key k (f (mergeChain order b rest)) = firstItems key k ((b :: rest).map f) := by
  induction rest generalizing b with
  | nil => exact firstItems_singleton.symm
  | cons parent rest ih =>
    show itemsOf key k (f (merge order b (mergeChain order parent rest))) = _
    rw [List.map_cons, firstItems_cons, h, itemsOf_replace, ih]

/-- A keyed field whose items are the parent's where it has some of the key. -/
lemma mergeChain_lastItems {α κ : Type} [DecidableEq κ] {f : Blueprint → List α} {key : α → κ}
    (h : ∀ b parent, f (merge order b parent) =
      f parent ++ (f b).filter fun x => key x ∉ (f parent).map key) (k : κ) :
    itemsOf key k (f (mergeChain order b rest)) = lastItems key k ((b :: rest).map f) := by
  induction rest generalizing b with
  | nil => exact firstItems_singleton.symm
  | cons parent rest ih =>
    show itemsOf key k (f (merge order b (mergeChain order parent rest))) = _
    rw [List.map_cons, lastItems_cons, h, itemsOf_addMissing, ih]

/-- A tag is one of some blueprint of the chain. -/
lemma mem_tags_mergeChain {tag : String} :
    tag ∈ (mergeChain order b rest).tags ↔ ∃ c ∈ b :: rest, tag ∈ c.tags := by
  induction rest generalizing b with
  | nil => simp [mergeChain]
  | cons parent rest ih =>
    show tag ∈ order.list ((mergeChain order parent rest).tags ++ b.tags) ↔ _
    rw [order.mem_list, List.mem_append, ih]
    simp [or_comm]

/-- The text of the image. -/
lemma image_mergeChain : (mergeChain order b rest).image.getD "" =
    firstSet "" ((b :: rest).map (·.image.getD "")) := by
  refine mergeChain_firstSet (f := fun c => c.image.getD "") fun b parent => ?_
  unfold merge
  dsimp only
  by_cases h : b.image.getD "" = "" <;> simp [h]

/-- A resolved blueprint whose first one sets an image has the digest of the first one, if it
has the digest that comes with the image. -/
lemma enforced_of_digest {r : Blueprint} (himage : r.image.getD "" =
      firstSet "" ((b :: rest).map (·.image.getD "")))
    (hdigest : r.imageDigest = pinnedDigest (b :: rest))
    {resolveImageDigest : String → Option String} {digest : String}
    (hallowed : (checkDigestPolicy resolveImageDigest r).allowed = true)
    (hset : b.image.getD "" ≠ "") (hpinned : b.imageDigest = some digest) (hne : digest ≠ "") :
    ∃ actual, resolveImageDigest (b.image.getD "") = some actual ∧
      strip actual = strip digest := by
  have hown : r.image.getD "" = b.image.getD "" := by
    rw [himage, List.map_cons, firstSet_cons, if_neg hset]
  have hfirst : r.imageDigest = some digest := by
    rw [hdigest]
    unfold pinnedDigest
    rw [List.find?_cons_of_pos (by simp [Blueprint.pins, hset]), Option.bind_some, hpinned]
  rw [← hown]
  exact digest_of_allowed hallowed (hown ▸ hset) hfirst hne

/-- A chain is resolved to a blueprint that keeps its settings if and only if, where the merge
takes a setting from another blueprint than the first one that makes it, both agree. -/
theorem settings_kept_iff (rt : PyRuntime) (order : SetOrder) (s : Store) (i : String)
    (b : Blueprint) (rest : List Blueprint) (hchain : Chain rt s i b rest) :
    ∃ r, (∀ depth, rest.length + 2 ≤ depth →
        resolveBlueprint rt order s depth i = .ok (some r)) ∧
      (KeepsSettings b rest r ↔ SettingsAgree b rest) := by
  refine ⟨mergeChain order b rest, fun depth hdepth => resolve_chain hchain hdepth, ?_⟩
  have himageDigest : (mergeChain order b rest).imageDigest = (rest.getLastD b).imageDigest :=
    mergeChain_last (f := (·.imageDigest)) fun _ _ => rfl
  have hallowedExec : (mergeChain order b rest).allowedExec = (rest.getLastD b).allowedExec :=
    mergeChain_last (f := (·.allowedExec)) fun _ _ => rfl
  have hresources : (mergeChain order b rest).resources = b.resources :=
    mergeChain_head (f := (·.resources)) fun _ _ => rfl
  have hicon : (mergeChain order b rest).icon = b.icon :=
    mergeChain_head (f := (·.icon)) fun _ _ => rfl
  have hmounts : ∀ container, itemsOf (·.container) container (mergeChain order b rest).mounts =
      lastItems (·.container) container ((b :: rest).map (·.mounts)) :=
    mergeChain_lastItems (f := (·.mounts)) fun _ _ => rfl
  have hsecrets : ∀ name, itemsOf (·.name) name (mergeChain order b rest).secretsRequired =
      lastItems (·.name) name ((b :: rest).map (·.secretsRequired)) :=
    mergeChain_lastItems (f := (·.secretsRequired)) fun _ _ => rfl
  constructor
  · intro h
    exact {
      imageDigest := h.imageDigest.symm.trans himageDigest
      allowedExec := h.allowedExec.symm.trans hallowedExec
      resources := h.resources.symm.trans hresources
      icon := h.icon.symm.trans hicon
      mounts := fun container => (h.mounts container).symm.trans (hmounts container)
      secretsRequired := fun name => (h.secretsRequired name).symm.trans (hsecrets name) }
  · intro h
    have hdigest := himageDigest.trans h.imageDigest.symm
    exact {
      id := mergeChain_head (f := (·.id)) fun _ _ => rfl
      name := mergeChain_head (f := (·.name)) fun _ _ => rfl
      icon := hicon.trans h.icon.symm
      description := mergeChain_firstSet (f := (·.description)) fun _ _ => rfl
      dockerfile := mergeChain_firstSet (f := (·.dockerfile)) fun _ _ => rfl
      image := image_mergeChain
      imageDigest := hdigest
      systemPrompt := mergeChain_firstSet (f := (·.systemPrompt)) fun _ _ => rfl
      resources := hresources.trans h.resources.symm
      secretsRequired := fun name => (hsecrets name).trans (h.secretsRequired name).symm
      mounts := fun container => (hmounts container).trans (h.mounts container).symm
      storageScope := mergeChain_firstSet (f := (·.storageScope)) fun _ _ => rfl
      ports := mergeChain_firstSet (f := (·.ports)) fun _ _ => rfl
      runtime := mergeChain_firstSet (f := (·.runtime)) fun _ _ => rfl
      devices := mergeChain_firstSet (f := (·.devices)) fun _ _ => rfl
      hardwareIntents := mergeChain_firstItems (f := (·.hardwareIntents)) fun _ _ => by
        simp [merge]
      environment := mergeChain_map (f := (·.environment)) fun _ _ => rfl
      healthcheck := mergeChain_map (f := (·.healthcheck)) fun _ _ => rfl
      preStartExec := mergeChain_firstSet (f := (·.preStartExec)) fun b _ => by
        cases hexec : b.preStartExec <;> simp [merge, hexec]
      capAdd := mergeChain_firstSet (f := (·.capAdd)) fun _ _ => rfl
      securityOpt := mergeChain_firstSet (f := (·.securityOpt)) fun _ _ => rfl
      capDrop := mergeChain_firstSet (f := (·.capDrop)) fun _ _ => rfl
      privileged := mergeChain_firstSet (f := (·.privileged)) fun b _ => by
        cases hset : b.privileged <;> simp [merge, hset]
      readOnlyRootfs := mergeChain_firstSet (f := (·.readOnlyRootfs)) fun b _ => by
        cases hset : b.readOnlyRootfs <;> simp [merge, hset]
      shmSize := mergeChain_firstSet (f := (·.shmSize)) fun _ _ => rfl
      ipcMode := mergeChain_firstSet (f := (·.ipcMode)) fun _ _ => rfl
      network := mergeChain_firstSet (f := (·.network)) fun b _ => by
        by_cases hset : b.network = .internal <;> simp [merge, hset]
      allowedExec := hallowedExec.trans h.allowedExec.symm
      tags := fun _ => mem_tags_mergeChain
      enforced := fun _ _ hallowed hset hpinned hne =>
        enforced_of_digest image_mergeChain hdigest hallowed hset hpinned hne }

/-- A store with a parent, and a child with a definition of its own. -/
def familyStore (child : Definition) : Store :=
  (blueprintStore .ascii).after {}
    [.create { id := some "parent", name := some "parent", image := some (some "base:1") } "now",
      .create { child with
        id := some "child", name := some "child", extendsId := some (some "parent") } "now"]

theorem network_child_kept :
    ∃ b parent r, b.network = .bridge ∧ resolveBlueprint .ascii .dedup
      (familyStore { network := some (.text .bridge) }) 3 "child" = .ok (some r) ∧
        KeepsSettings b [parent] r := by
  obtain ⟨r, hr, hkeeps⟩ := settings_kept_iff .ascii .dedup
    (familyStore { network := some (.text .bridge) }) "child" _ _
    (.link rfl rfl (by decide) (.root rfl rfl))
  refine ⟨_, _, r, rfl, hr 3 (by decide), hkeeps.mpr ?_⟩
  exact ⟨rfl, rfl, rfl, rfl, fun _ => rfl, fun _ => rfl⟩

/-- A child that sets an image and pins its digest. -/
def pinnedChild : Definition :=
  { image := some (some "app:1"), imageDigest := some (some "sha256:aa") }

theorem pin_dropped :
    ∃ b parent r, b.imageDigest = some "sha256:aa" ∧
      Chain .ascii (familyStore pinnedChild) "child" b [parent] ∧
      resolveBlueprint .ascii .dedup (familyStore pinnedChild) 3 "child" = .ok (some r) ∧
        ¬ KeepsSettings b [parent] r := by
  refine ⟨_, _, _, rfl, .link rfl rfl (by decide) (.root rfl rfl), rfl, fun h => ?_⟩
  exact absurd h.imageDigest (by decide)

end Trion.Blueprints
