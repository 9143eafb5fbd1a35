import Trion.Library.OrderedDict
import Trion.Python.IntText

/-!
# The ports of a deployment

`build_port_bindings` turns a list of port specifications into the ports that a container gets.
All host ports go into one set, whatever their protocol, and the bindings into one dictionary by
container port and protocol.
-/

namespace Trion.Commander

open Python

/-! ### Surroundings -/

/-- What the bindings need of their surroundings: the range of the automatic ports, and which ports
a socket can be bound to, a datagram socket or a stream. -/
structure PortRuntime extends PyRuntime where
  autoPortMin : ℤ
  autoPortMax : ℤ
  isFree : Bool → ℤ → Bool
  parseInt_toString : ∀ n : ℤ, parseInt (toString n) = some n

/-- The exceptions of the bindings. -/
inductive PortError where
  | valueError (message : String)
  | runtimeError (message : String)
  | overflowError
deriving DecidableEq, Repr

variable (rt : PortRuntime)

/-- `int(text)`. -/
def PortRuntime.int (text : String) : Except PortError ℤ :=
  match rt.parseInt text with
  | some n => .ok n
  | none => .error (.valueError ("invalid literal for int() with base 10: '" ++ text ++ "'"))

/-- `check_port`: a number that is no port is no address. -/
def checkPort (port : ℤ) (protocol : String) : Except PortError Bool :=
  if 0 ≤ port ∧ port ≤ 65535 then .ok (rt.isFree (protocol = "udp") port)
  else .error .overflowError

/-- The loop of `find_free_port`. -/
def findFreeIn (protocol : String) (excludedPorts : List ℤ) : List ℤ → Except PortError ℤ
  | [] => .error (.runtimeError ("no free " ++ protocol ++ " port found in range " ++
      toString rt.autoPortMin ++ "-" ++ toString rt.autoPortMax))
  | port :: ports =>
    if port ∈ excludedPorts then findFreeIn protocol excludedPorts ports
    else
      match checkPort rt port protocol with
      | .error e => .error e
      | .ok true => .ok port
      | .ok false => findFreeIn protocol excludedPorts ports

/-- `find_free_port` in the range of the automatic ports. -/
def findFreePort (protocol : String) (excludedPorts : List ℤ) : Except PortError ℤ :=
  findFreeIn rt protocol excludedPorts
    ((List.range (rt.autoPortMax + 1 - rt.autoPortMin).toNat).map fun i : ℕ => rt.autoPortMin + i)

/-! ### Specifications -/

/-- `text.rsplit(sep, 1)` for a separator that occurs. -/
def splitLast (sep : Char) (text : String) : String × String :=
  let reversed := text.toList.reverse
  (String.ofList ((reversed.dropWhile (· != sep)).drop 1).reverse,
    String.ofList (reversed.takeWhile (· != sep)).reverse)

/-- The host port, the container port and the protocol of a specification that names a container
port. -/
structure SpecTexts where
  hostPort : String
  containerPort : String
  proto : String
deriving DecidableEq, Repr

/-- The texts of a specification, if there is something to bind. -/
def specTexts (raw : String) : Option SpecTexts :=
  let stripped := strip raw
  let (spec, proto) :=
    if '/' ∈ stripped.toList then
      let (spec, protoRaw) := splitLast '/' stripped
      (spec, orElse (rt.lower (strip (orElse protoRaw "tcp"))) "tcp")
    else (stripped, "tcp")
  let (hostPort, containerPort) :=
    if ':' ∈ spec.toList then (beforeFirst ':' spec, afterFirst ':' spec) else (spec, spec)
  if stripped = "" ∨ strip containerPort = "" then none
  else some ⟨strip hostPort, strip containerPort, proto⟩

-- The loop is unfolded without looking into the texts of a specification.
attribute [local irreducible] specTexts

/-- The host port is to be chosen. -/
def IsAuto (hostPort : String) : Prop := hostPort ∈ ["", "0", "auto"]

instance : DecidablePred IsAuto := fun _ => inferInstanceAs (Decidable (_ ∈ _))

/-- `[part.strip() for part in text.split("-", 1)]`, the first part and the second if there is
one. -/
def rangeParts (text : String) : String × Option String :=
  if '-' ∈ text.toList then
    (strip (beforeFirst '-' text), some (strip (afterFirst '-' text)))
  else (strip text, none)

/-! ### Bindings -/

/-- The variables of the loop. -/
structure PortState where
  bindings : List (String × String) := []
  reservedHostPorts : List ℤ := []
deriving DecidableEq, Repr

/-- A host port is reserved for a container port. -/
def PortState.bind (s : PortState) (host : ℤ) (container proto : String) :
    Except PortError PortState :=
  if host ∈ s.reservedHostPorts then
    .error (.valueError ("duplicate host port in blueprint request: " ++ toString host ++ "/" ++
      proto))
  else
    .ok ⟨OrderedDict.insert s.bindings (container ++ "/" ++ proto) (toString host),
      host :: s.reservedHostPorts⟩

/-- The bindings of a range from some offset on. -/
def PortState.bindRange (s : PortState) (hostStart containerStart : ℤ) (proto : String) :
    List ℕ → Except PortError PortState
  | [] => .ok s
  | offset :: offsets =>
    match s.bind (hostStart + offset) (toString (containerStart + offset)) proto with
    | .error e => .error e
    | .ok s => s.bindRange hostStart containerStart proto offsets

/-- The bindings of the texts, with a host port in place of a missing one. -/
def PortState.bindTexts (s : PortState) (raw hostPort containerPort proto : String) :
    Except PortError PortState :=
  match rangeParts hostPort, rangeParts containerPort with
  | (_, none), (_, none) => do
    let host ← rt.int hostPort
    s.bind host containerPort proto
  | (hostFirst, some hostLast), (containerFirst, some containerLast) => do
    let hostStart ← rt.int hostFirst
    let hostEnd ← rt.int hostLast
    let containerStart ← rt.int containerFirst
    let containerEnd ← rt.int containerLast
    if hostEnd < hostStart ∨ containerEnd < containerStart ∨
        hostEnd - hostStart ≠ containerEnd - containerStart then
      .error (.valueError ("invalid port range mapping: '" ++ raw ++ "'"))
    else
      s.bindRange hostStart containerStart proto (List.range (hostEnd - hostStart + 1).toNat)
  | _, _ => .error (.valueError ("invalid mixed port range mapping: '" ++ raw ++ "'"))

/-- One turn of the loop of `build_port_bindings`. -/
def PortState.addSpec (s : PortState) (raw : String) : Except PortError PortState :=
  match specTexts rt raw with
  | none => .ok s
  | some texts =>
    if IsAuto texts.hostPort then do
      let port ← findFreePort rt texts.proto s.reservedHostPorts
      s.bindTexts rt raw (toString port) texts.containerPort texts.proto
    else s.bindTexts rt raw texts.hostPort texts.containerPort texts.proto

/-- The loop of `build_port_bindings`. -/
def PortState.addSpecs (s : PortState) : List String → Except PortError PortState
  | [] => .ok s
  | raw :: raws =>
    match s.addSpec rt raw with
    | .error e => .error e
    | .ok s => s.addSpecs raws

/-- `build_port_bindings`. -/
def buildPortBindings (portSpecs : List String) : Except PortError (List (String × String)) :=
  (PortState.addSpecs rt {} portSpecs).map PortState.bindings

/-! ### What specifications ask for -/

/-- What a specification asks for: nothing, a port of the host that is free, a port of the host, or
a range of them. -/
inductive PortSpec where
  | nothing
  | auto (container proto : String)
  | port (host : ℤ) (container proto : String)
  | range (hostStart containerStart : ℤ) (size : ℕ) (proto : String)
deriving DecidableEq, Repr

/-- A host port for a container port. -/
structure PortClaim where
  host : ℤ
  container : String
  proto : String
deriving DecidableEq, Repr

/-- The key of the claim in the bindings. -/
def PortClaim.key (claim : PortClaim) : String := claim.container ++ "/" ++ claim.proto

/-- The claims of a specification on host ports that it names. -/
def PortSpec.named : PortSpec → List PortClaim
  | .nothing | .auto _ _ => []
  | .port host container proto => [⟨host, container, proto⟩]
  | .range hostStart containerStart size proto =>
    (List.range size).map fun offset : ℕ =>
      ⟨hostStart + offset, toString (containerStart + offset), proto⟩

/-- The claims of a specification, where the ports that have been taken are not chosen; none if no
port can be chosen. -/
def PortSpec.claims (taken : List ℤ) : PortSpec → Option (List PortClaim)
  | .auto container proto =>
    (findFreePort rt proto taken).toOption.map fun host => [⟨host, container, proto⟩]
  | spec => some spec.named

/-- The claims of all specifications in turn. -/
def claimsOf (taken : List ℤ) : List PortSpec → Option (List PortClaim)
  | [] => some []
  | spec :: specs =>
    (spec.claims rt taken).bind fun claims =>
      (claimsOf ((claims.map PortClaim.host).reverse ++ taken) specs).map (claims ++ ·)

/-- What a specification asks for, if it is well formed. -/
def readSpec (raw : String) : Option PortSpec :=
  match specTexts rt raw with
  | none => some .nothing
  | some texts =>
    match rangeParts texts.hostPort, rangeParts texts.containerPort with
    | (_, none), (_, none) =>
      if IsAuto texts.hostPort then some (.auto texts.containerPort texts.proto)
      else (rt.parseInt texts.hostPort).map fun host =>
        .port host texts.containerPort texts.proto
    | (hostFirst, some hostLast), (containerFirst, some containerLast) => do
      let hostStart ← rt.parseInt hostFirst
      let hostEnd ← rt.parseInt hostLast
      let containerStart ← rt.parseInt containerFirst
      let containerEnd ← rt.parseInt containerLast
      if hostEnd < hostStart ∨ containerEnd < containerStart ∨
        hostEnd - hostStart ≠ containerEnd - containerStart then none
      else some (.range hostStart containerStart (hostEnd - hostStart + 1).toNat texts.proto)
    | _, _ => none

/-- The specifications that are well formed. -/
def specsOf (portSpecs : List String) : List PortSpec := portSpecs.filterMap (readSpec rt)

/-- What the bindings have to do: each claim is bound, no host port is bound twice for a protocol,
and well-formed specifications are refused only where two of them name the same host port with the
same protocol. -/
structure BindsAll (portSpecs : List String) : Prop where
  bound : ∀ bindings, buildPortBindings rt portSpecs = .ok bindings →
    ∃ claims, claimsOf rt [] (specsOf rt portSpecs) = some claims ∧
      ∀ claim ∈ claims, OrderedDict.get? bindings claim.key = some (toString claim.host)
  distinct : ∀ bindings, buildPortBindings rt portSpecs = .ok bindings →
    ∀ a ∈ bindings, ∀ b ∈ bindings, a.2 = b.2 →
      (splitLast '/' a.1).2 = (splitLast '/' b.1).2 → a = b
  refused : ∀ e, buildPortBindings rt portSpecs = .error e →
    (∀ raw ∈ portSpecs, readSpec rt raw ≠ none) →
      ¬(((specsOf rt portSpecs).flatMap PortSpec.named).map fun claim =>
        (claim.host, claim.proto)).Nodup

/-! ### One specification -/

section Claims

variable {rt} {s s' : PortState} {claim : PortClaim} {claims : List PortClaim} {taken : List ℤ}
  {raw proto : String} {spec : PortSpec} {port : ℤ} {ports : List ℤ}

/-- The bindings of claims, one after the other. -/
def PortState.bindAll (s : PortState) : List PortClaim → Except PortError PortState
  | [] => .ok s
  | claim :: claims =>
    match s.bind claim.host claim.container claim.proto with
    | .error e => .error e
    | .ok s => s.bindAll claims

/-- The state after claims that have been bound. -/
def PortState.after (s : PortState) (claims : List PortClaim) : PortState :=
  ⟨OrderedDict.insertAll PortClaim.key (fun claim => toString claim.host) s.bindings claims,
    (claims.map PortClaim.host).reverse ++ s.reservedHostPorts⟩

lemma bindAll_eq_ok :
    s.bindAll claims = .ok s' ↔
      (claims.map PortClaim.host).Nodup ∧
        (∀ claim ∈ claims, claim.host ∉ s.reservedHostPorts) ∧ s.after claims = s' := by
  induction claims generalizing s with
  | nil => simp [PortState.bindAll, PortState.after, OrderedDict.insertAll]
  | cons claim claims ih =>
    unfold PortState.bindAll PortState.bind
    by_cases hreserved : claim.host ∈ s.reservedHostPorts
    · rw [if_pos hreserved]
      simp [hreserved]
    · rw [if_neg hreserved]
      dsimp only
      rw [ih, List.map_cons, List.nodup_cons, List.forall_mem_cons]
      have hafter : PortState.after ⟨OrderedDict.insert s.bindings
          (claim.container ++ "/" ++ claim.proto) (toString claim.host),
            claim.host :: s.reservedHostPorts⟩ claims = s.after (claim :: claims) := by
        simp [PortState.after, OrderedDict.insertAll, PortClaim.key]
      rw [hafter]
      constructor
      · rintro ⟨hnodup, hfree, rfl⟩
        refine ⟨⟨fun hmem => ?_, hnodup⟩, ⟨hreserved, fun other hother hin => ?_⟩, rfl⟩
        · obtain ⟨other, hother, heq⟩ := List.mem_map.mp hmem
          exact hfree other hother (heq ▸ List.mem_cons_self)
        · exact hfree other hother (List.mem_cons_of_mem _ hin)
      · rintro ⟨⟨hout, hnodup⟩, ⟨-, hfree⟩, rfl⟩
        refine ⟨hnodup, fun other hother hin => ?_, rfl⟩
        rcases List.mem_cons.mp hin with heq | hin
        · exact hout (heq ▸ List.mem_map_of_mem hother)
        · exact hfree other hother hin

lemma bindRange_eq {hostStart containerStart : ℤ} (offsets : List ℕ) :
    s.bindRange hostStart containerStart proto offsets =
      s.bindAll (offsets.map fun offset : ℕ =>
        ⟨hostStart + offset, toString (containerStart + offset), proto⟩) := by
  induction offsets generalizing s with
  | nil => rfl
  | cons offset offsets ih =>
    unfold PortState.bindRange
    rw [List.map_cons, PortState.bindAll]
    split <;> rename_i heq <;> rw [heq]
    exact ih

/-- A port that is chosen is one that can be. -/
lemma nonneg_of_findFreeIn (h : findFreeIn rt proto taken ports = .ok port) : 0 ≤ port := by
  induction ports with
  | nil => exact nomatch h
  | cons first ports ih =>
    unfold findFreeIn at h
    split at h
    · exact ih h
    · unfold checkPort at h
      split at h
      · exact nomatch h
      · rename_i hcheck
        split at hcheck
        · rename_i hrange
          exact Except.ok.inj h ▸ hrange.1
        · exact nomatch hcheck
      · exact ih h

lemma notMem_toString (h : 0 ≤ port) : '-' ∉ (toString port).toList := by
  obtain ⟨n, rfl⟩ := Int.eq_ofNat_of_zero_le h
  intro hmem
  have hdigit : '-' ∈ Nat.toDigits 10 n := by
    rw [show toString (n : ℤ) = Nat.repr n from rfl, Nat.repr, String.toList_ofList] at hmem
    exact hmem
  exact absurd (Nat.isDigit_of_mem_toDigits (by decide) (by decide) hdigit) (by decide)

lemma isAuto_noDash {text : String} (h : IsAuto text) : '-' ∉ text.toList := by
  simp only [IsAuto, List.mem_cons, List.not_mem_nil, or_false] at h
  rcases h with rfl | rfl | rfl <;> decide

lemma rangeParts_of_notMem {text : String} (h : '-' ∉ text.toList) :
    rangeParts text = (strip text, none) := if_neg h

lemma bindAll_singleton :
    s.bindAll [claim] = s.bind claim.host claim.container claim.proto := by
  unfold PortState.bindAll
  cases s.bind claim.host claim.container claim.proto <;> rfl

/-- A port that has been chosen is bound to the container port. -/
lemma bindTexts_chosen {container : String} (h : findFreePort rt proto taken = .ok port)
    (hcontainer : (rangeParts container).2 = none) :
    s.bindTexts rt raw (toString port) container proto = s.bindAll [⟨port, container, proto⟩] := by
  have hint : rt.int (toString port) = .ok port := by
    rw [PortRuntime.int, rt.parseInt_toString]
  obtain ⟨first, hparts⟩ : ∃ first, rangeParts container = (first, none) :=
    ⟨_, Prod.ext rfl hcontainer⟩
  unfold PortState.bindTexts
  rw [rangeParts_of_notMem (notMem_toString (nonneg_of_findFreeIn h)), hparts, bindAll_singleton]
  dsimp only
  rw [hint]
  rfl

/-- The result of one turn of the loop: it binds the claims of a specification that is well
formed, and fails where there are none or where it is not. -/
structure Turn (rt : PortRuntime) (s : PortState) (read : Option PortSpec)
    (result : Except PortError PortState) : Prop where
  binds : ∀ spec claims, read = some spec → spec.claims rt s.reservedHostPorts = some claims →
    result = s.bindAll claims
  exhausted : ∀ spec, read = some spec → spec.claims rt s.reservedHostPorts = none →
    ∃ e, result = .error e
  malformed : read = none → ∃ e, result = .error e

lemma turn_malformed (e : PortError) : Turn rt s none (.error e) :=
  ⟨nofun, nofun, fun _ => ⟨e, rfl⟩⟩

/-- The ports of a specification that names them are bound. -/
lemma turn_named {result : Except PortError PortState}
    (hclaims : spec.claims rt s.reservedHostPorts = some claims)
    (hresult : result = s.bindAll claims) : Turn rt s (some spec) result := by
  refine ⟨?_, ?_, nofun⟩
  · rintro _ _ ⟨rfl⟩ h
    rw [hclaims] at h
    exact Option.some.inj h ▸ hresult
  · rintro _ ⟨rfl⟩ h
    rw [hclaims] at h
    exact nomatch h

/-- One turn of the loop. -/
lemma turn_addSpec (s : PortState) (raw : String) :
    Turn rt s (readSpec rt raw) (s.addSpec rt raw) := by
  cases htexts : specTexts rt raw with
  | none =>
    rw [readSpec, PortState.addSpec, htexts]
    exact turn_named rfl rfl
  | some texts =>
    by_cases hauto : IsAuto texts.hostPort
    · have hadd : s.addSpec rt raw = (findFreePort rt texts.proto s.reservedHostPorts).bind
          fun port => s.bindTexts rt raw (toString port) texts.containerPort texts.proto := by
        rw [PortState.addSpec, htexts]
        exact if_pos hauto
      rw [hadd, readSpec, htexts]
      dsimp only
      rw [rangeParts_of_notMem (isAuto_noDash hauto), if_pos hauto]
      cases hfind : findFreePort rt texts.proto s.reservedHostPorts with
      | error e =>
        rcases rangeParts texts.containerPort with ⟨first, _ | last⟩
        · refine ⟨?_, fun _ _ _ => ⟨e, rfl⟩, nofun⟩
          rintro _ _ ⟨rfl⟩ h
          rw [PortSpec.claims, hfind] at h
          exact nomatch h
        · exact turn_malformed e
      | ok port =>
        rcases hcontainer : rangeParts texts.containerPort with ⟨first, _ | last⟩
        · refine @turn_named _ _ [⟨port, texts.containerPort, texts.proto⟩] _ _ ?_ ?_
          · rw [PortSpec.claims, hfind]
            rfl
          · exact bindTexts_chosen hfind (by rw [hcontainer])
        · have hmixed : s.bindTexts rt raw (toString port) texts.containerPort texts.proto =
              .error (.valueError ("invalid mixed port range mapping: '" ++ raw ++ "'")) := by
            unfold PortState.bindTexts
            rw [rangeParts_of_notMem (notMem_toString (nonneg_of_findFreeIn hfind)), hcontainer]
          have hresult : ((Except.ok port : Except PortError ℤ).bind fun port =>
              s.bindTexts rt raw (toString port) texts.containerPort texts.proto) =
                .error (.valueError ("invalid mixed port range mapping: '" ++ raw ++ "'")) := hmixed
          rw [hresult]
          exact turn_malformed _
    · have hadd : s.addSpec rt raw =
          s.bindTexts rt raw texts.hostPort texts.containerPort texts.proto := by
        rw [PortState.addSpec, htexts]
        exact if_neg hauto
      rw [hadd, readSpec, htexts]
      unfold PortState.bindTexts
      dsimp only
      rw [if_neg hauto]
      rcases rangeParts texts.hostPort with ⟨hostFirst, _ | hostLast⟩ <;>
        rcases rangeParts texts.containerPort with ⟨containerFirst, _ | containerLast⟩ <;>
          dsimp only
      · unfold PortRuntime.int
        cases rt.parseInt texts.hostPort with
        | none => exact turn_malformed _
        | some host =>
          have hbind := @bindAll_singleton s ⟨host, texts.containerPort, texts.proto⟩
          exact turn_named rfl hbind.symm
      · exact turn_malformed _
      · exact turn_malformed _
      · unfold PortRuntime.int
        cases rt.parseInt hostFirst with
        | none => exact turn_malformed _
        | some hostStart =>
        cases rt.parseInt hostLast with
        | none => exact turn_malformed _
        | some hostEnd =>
        cases rt.parseInt containerFirst with
        | none => exact turn_malformed _
        | some containerStart =>
        cases rt.parseInt containerLast with
        | none => exact turn_malformed _
        | some containerEnd =>
          dsimp only [bind, Except.bind, Option.bind]
          split
          · exact turn_malformed _
          · refine turn_named rfl ?_
            rw [bindRange_eq]
            rfl

end Claims

/-! ### All specifications -/

section Specs

variable {rt} {s s' : PortState} {claims others : List PortClaim} {taken : List ℤ}
  {raws : List String} {specs : List PortSpec} {bindings : List (String × String)}

/-- Claims are bound after others if they can be bound together. -/
lemma bindAll_append_eq_ok :
    (∃ middle, s.bindAll claims = .ok middle ∧ middle.bindAll others = .ok s') ↔
      s.bindAll (claims ++ others) = .ok s' := by
  induction claims generalizing s with
  | nil => simp [PortState.bindAll]
  | cons claim claims ih =>
    rw [List.cons_append, PortState.bindAll, PortState.bindAll]
    cases s.bind claim.host claim.container claim.proto with
    | error e => simp
    | ok next => exact ih

/-- The loop over well-formed specifications binds all their claims. -/
lemma addSpecs_eq_ok (hwell : ∀ raw ∈ raws, readSpec rt raw ≠ none) :
    s.addSpecs rt raws = .ok s' ↔
      ∃ claims, claimsOf rt s.reservedHostPorts (specsOf rt raws) = some claims ∧
        s.bindAll claims = .ok s' := by
  induction raws generalizing s with
  | nil => simp [PortState.addSpecs, specsOf, claimsOf, PortState.bindAll]
  | cons raw raws ih =>
    rw [List.forall_mem_cons] at hwell
    obtain ⟨spec, hread⟩ := Option.ne_none_iff_exists'.mp hwell.1
    have hturn := @turn_addSpec rt s raw
    rw [PortState.addSpecs, specsOf, List.filterMap_cons_some hread, claimsOf]
    cases hclaims : spec.claims rt s.reservedHostPorts with
    | none =>
      obtain ⟨e, hadd⟩ := hturn.exhausted spec hread hclaims
      rw [hadd]
      refine ⟨nofun, ?_⟩
      rintro ⟨_, hnone, -⟩
      exact nomatch hnone
    | some claims =>
      rw [hturn.binds spec claims hread hclaims]
      have hmiddle : ∀ {middle}, s.bindAll claims = .ok middle →
          middle.reservedHostPorts =
            (claims.map PortClaim.host).reverse ++ s.reservedHostPorts := by
        intro middle hbind
        obtain ⟨-, -, rfl⟩ := bindAll_eq_ok.mp hbind
        rfl
      simp only [Option.bind_some, Option.map_eq_some_iff]
      constructor
      · intro h
        cases hbind : s.bindAll claims with
        | error e =>
          rw [hbind] at h
          exact nomatch h
        | ok middle =>
          rw [hbind] at h
          obtain ⟨others, hothers, hrest⟩ := (ih hwell.2).mp h
          rw [hmiddle hbind] at hothers
          exact ⟨_, ⟨others, hothers, rfl⟩, bindAll_append_eq_ok.mp ⟨middle, hbind, hrest⟩⟩
      · rintro ⟨_, ⟨others, hothers, rfl⟩, hall⟩
        obtain ⟨middle, hbind, hrest⟩ := bindAll_append_eq_ok.mpr hall
        rw [hbind]
        refine (ih hwell.2).mpr ⟨others, ?_, hrest⟩
        rwa [hmiddle hbind]

/-- A specification that is not well formed is refused. -/
lemma addSpecs_ne_ok (h : ∃ raw ∈ raws, readSpec rt raw = none) : s.addSpecs rt raws ≠ .ok s' := by
  induction raws generalizing s with
  | nil =>
    obtain ⟨raw, hmem, -⟩ := h
    exact absurd hmem List.not_mem_nil
  | cons raw raws ih =>
    rw [PortState.addSpecs]
    obtain ⟨bad, hmem, hread⟩ := h
    cases hadd : s.addSpec rt raw with
    | error e => exact nofun
    | ok middle =>
      refine ih ⟨bad, (List.mem_cons.mp hmem).resolve_left ?_, hread⟩
      rintro rfl
      obtain ⟨e, he⟩ := (@turn_addSpec rt s bad).malformed hread
      rw [he] at hadd
      exact nomatch hadd

lemma buildPortBindings_eq_ok (hwell : ∀ raw ∈ raws, readSpec rt raw ≠ none) :
    buildPortBindings rt raws = .ok bindings ↔
      ∃ claims, claimsOf rt [] (specsOf rt raws) = some claims ∧
        (claims.map PortClaim.host).Nodup ∧
          OrderedDict.insertAll PortClaim.key (fun claim => toString claim.host) [] claims =
            bindings := by
  have hmap : buildPortBindings rt raws = .ok bindings ↔
      ∃ s', PortState.addSpecs rt {} raws = .ok s' ∧ s'.bindings = bindings := by
    unfold buildPortBindings
    cases PortState.addSpecs rt {} raws with
    | error e => simp [Except.map]
    | ok s' => simp [Except.map]
  rw [hmap]
  constructor
  · rintro ⟨s', hadd, rfl⟩
    obtain ⟨claims, hclaims, hbind⟩ := (addSpecs_eq_ok hwell).mp hadd
    obtain ⟨hnodup, -, rfl⟩ := bindAll_eq_ok.mp hbind
    exact ⟨claims, hclaims, hnodup, rfl⟩
  · rintro ⟨claims, hclaims, hnodup, rfl⟩
    have hbind : PortState.bindAll {} claims = .ok (PortState.after {} claims) :=
      bindAll_eq_ok.mpr ⟨hnodup, fun _ _ => List.not_mem_nil, rfl⟩
    exact ⟨_, (addSpecs_eq_ok hwell).mpr ⟨claims, hclaims, hbind⟩, rfl⟩

/-- The claims that are named are among all claims. -/
lemma named_sublist (h : claimsOf rt taken specs = some claims) :
    (specs.flatMap PortSpec.named).Sublist claims := by
  induction specs generalizing taken claims with
  | nil => exact List.nil_sublist _
  | cons spec specs ih =>
    rw [claimsOf] at h
    obtain ⟨first, hfirst, hmap⟩ := Option.bind_eq_some_iff.mp h
    obtain ⟨rest, hrest, rfl⟩ := Option.map_eq_some_iff.mp hmap
    rw [List.flatMap_cons]
    refine List.Sublist.append ?_ (ih hrest)
    cases spec with
    | auto container proto => exact List.nil_sublist _
    | nothing | port | range =>
      cases hfirst
      exact List.Sublist.refl _

/-- An entry of the bindings comes from a claim. -/
lemma exists_claim {entry : String × String}
    (h : entry ∈ OrderedDict.insertAll PortClaim.key (fun claim => toString claim.host) [] claims) :
    ∃ claim ∈ claims, claim.key = entry.1 ∧ toString claim.host = entry.2 := by
  have hnodup : (OrderedDict.keys (OrderedDict.insertAll PortClaim.key
      (fun claim => toString claim.host) [] claims)).Nodup :=
    OrderedDict.nodup_keys_insertAll List.nodup_nil
  have hget := OrderedDict.get?_of_mem hnodup h
  rcases OrderedDict.get?_insertAll hget with ⟨claim, hlast, hkey, hhost⟩ | ⟨-, hnone⟩
  · exact ⟨claim, OrderedDict.mem_of_mem_lastOfKey hlast, hkey, hhost⟩
  · exact nomatch hnone

/-- Each host port is bound once. -/
lemma eq_of_host_eq (hnodup : (claims.map PortClaim.host).Nodup) {a b : String × String}
    (ha : a ∈ OrderedDict.insertAll PortClaim.key (fun claim => toString claim.host) [] claims)
    (hb : b ∈ OrderedDict.insertAll PortClaim.key (fun claim => toString claim.host) [] claims)
    (hab : a.2 = b.2) : a = b := by
  obtain ⟨first, hfirst, hkey, hhost⟩ := exists_claim ha
  obtain ⟨second, hsecond, hkey', hhost'⟩ := exists_claim hb
  have hsame : first = second :=
    List.inj_on_of_nodup_map hnodup hfirst hsecond
      (intText_inj (hhost.trans (hab.trans hhost'.symm)))
  exact Prod.ext (hkey.symm.trans (hsame ▸ hkey')) hab

/-- The bindings do what they have to do exactly if a specification is not well formed, or two of
them name the same host port with the same protocol, or each automatic one finds a port, no host
port is claimed twice whatever the protocol, and no container port with its protocol twice. -/
theorem bindsAll_iff (rt : PortRuntime) (portSpecs : List String) :
    BindsAll rt portSpecs ↔
      (∃ raw ∈ portSpecs, readSpec rt raw = none) ∨
      ¬(((specsOf rt portSpecs).flatMap PortSpec.named).map fun claim =>
        (claim.host, claim.proto)).Nodup ∨
      ∃ claims, claimsOf rt [] (specsOf rt portSpecs) = some claims ∧
        (claims.map PortClaim.host).Nodup ∧ (claims.map PortClaim.key).Nodup := by
  by_cases hwell : ∃ raw ∈ portSpecs, readSpec rt raw = none
  · have hrefused : ∀ bindings, buildPortBindings rt portSpecs ≠ .ok bindings := by
      intro bindings hbuild
      unfold buildPortBindings at hbuild
      obtain ⟨s', hadd, -⟩ := ok_of_map hbuild
      exact addSpecs_ne_ok hwell hadd
    refine iff_of_true ⟨fun bindings hbuild => absurd hbuild (hrefused bindings),
      fun bindings hbuild => absurd hbuild (hrefused bindings), fun e _ hall => ?_⟩ (.inl hwell)
    obtain ⟨raw, hmem, hread⟩ := hwell
    exact absurd hread (hall raw hmem)
  · simp only [hwell, false_or]
    push Not at hwell
    constructor
    · intro h
      by_cases hnamed : (((specsOf rt portSpecs).flatMap PortSpec.named).map fun claim =>
          (claim.host, claim.proto)).Nodup
      · refine .inr ?_
        cases hbuild : buildPortBindings rt portSpecs with
        | error e => exact absurd hnamed (h.refused e hbuild hwell)
        | ok bindings =>
          obtain ⟨claims, hclaims, hhosts, rfl⟩ := (buildPortBindings_eq_ok hwell).mp hbuild
          obtain ⟨claims', hclaims', hbound⟩ := h.bound _ hbuild
          obtain rfl : claims = claims' := Option.some.inj (hclaims.symm.trans hclaims')
          refine ⟨claims, hclaims, hhosts, ?_⟩
          refine List.Nodup.map_on (fun first hfirst second hsecond hkey => ?_) hhosts.of_map
          have hget := hbound first hfirst
          rw [hkey, hbound second hsecond] at hget
          exact (List.inj_on_of_nodup_map hhosts hsecond hfirst
            (intText_inj (Option.some.inj hget))).symm
      · exact .inl hnamed
    · intro h
      refine ⟨fun bindings hbuild => ?_, fun bindings hbuild a ha b hb hab _ => ?_,
        fun e hbuild _ => ?_⟩
      · obtain ⟨claims, hclaims, hhosts, rfl⟩ := (buildPortBindings_eq_ok hwell).mp hbuild
        refine ⟨claims, hclaims, fun claim hclaim => ?_⟩
        rcases h with hnamed | ⟨claims', hclaims', -, hkeys⟩
        · refine absurd (List.Nodup.sublist ((named_sublist hclaims).map _) ?_) hnamed
          exact List.Nodup.of_map Prod.fst (by rw [List.map_map]; exact hhosts)
        · obtain rfl : claims = claims' := Option.some.inj (hclaims.symm.trans hclaims')
          exact OrderedDict.get?_insertAll_of_mem (OrderedDict.mem_lastOfKey hkeys hclaim)
      · obtain ⟨claims, hclaims, hhosts, rfl⟩ := (buildPortBindings_eq_ok hwell).mp hbuild
        exact eq_of_host_eq hhosts ha hb hab
      · rcases h with hnamed | ⟨claims, hclaims, hhosts, -⟩
        · exact hnamed
        · have hok := (buildPortBindings_eq_ok hwell).mpr ⟨claims, hclaims, hhosts, rfl⟩
          rw [hbuild] at hok
          exact nomatch hok

end Specs

/-- The built-ins on ASCII text, where all ports are free. -/
def asciiPorts : PortRuntime where
  toPyRuntime := .ascii
  autoPortMin := 8000
  autoPortMax := 9000
  isFree _ _ := true
  parseInt_toString := parseInt_ascii_toString

/-- A name server, which takes the same port for both protocols, is refused; of two host ports for
one port of the container the first one is lost. -/
theorem not_bindsAll_nameServer :
    ¬BindsAll asciiPorts ["53:53/tcp", "53:53/udp"] ∧
      ¬BindsAll asciiPorts ["8080:80", "8081:80"] := by
  constructor
  · intro h
    refine h.refused (.valueError "duplicate host port in blueprint request: 53/udp")
      (by decide +kernel) (by decide +kernel) ?_
    decide +kernel
  · intro h
    obtain ⟨claims, hclaims, hbound⟩ := h.bound [("80/tcp", "8081")] (by decide +kernel)
    have heq : claimsOf asciiPorts [] (specsOf asciiPorts ["8080:80", "8081:80"]) =
        some [⟨8080, "80", "tcp"⟩, ⟨8081, "80", "tcp"⟩] := by decide +kernel
    rw [heq] at hclaims
    have hfirst := hbound ⟨8080, "80", "tcp"⟩ (Option.some.inj hclaims ▸ List.mem_cons_self)
    exact absurd hfirst (by decide +kernel)

end Trion.Commander
