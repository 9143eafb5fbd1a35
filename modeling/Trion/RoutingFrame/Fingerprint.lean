import Trion.Python.Repr
import Trion.RoutingFrame.ContractSchema

/-!
# The fingerprint of a contract

`compute_operation_contract_fingerprint`: the SHA-256 of the `repr` of everything in a
contract except its provenance.  The text tells those fields, so under an injective hash no
change to one of them goes unnoticed.
-/

namespace Trion.RoutingFrame

open Trion.Python

/-- What the fingerprint takes from outside: which characters are printable, and the
hexadecimal SHA-256 of a text in UTF-8. -/
structure FingerprintRuntime where
  printable : Char → Bool
  sha256 : String → String

/-- A tuple of strings. -/
def nameTuple (names : List String) : Literal := .tuple (names.map .str)

/-- The tuple `(source_operation, target_operation, required_evidence)`. -/
def OperationTransition.canonical (t : OperationTransition) : Literal :=
  .tuple [.str t.sourceOperation, .str t.targetOperation, nameTuple t.requiredEvidence]

/-- The tuple the fingerprint is taken over. -/
def OperationContractFields.canonical (c : OperationContractFields) : Literal :=
  .tuple [.str c.domain, .str c.primaryOperation, .str c.target, nameTuple c.targets,
    nameTuple c.detailFields, .bool c.mutatingAction, nameTuple c.requiredEvidence,
    nameTuple c.allowedOperations, .tuple (c.transitionRequirements.map (·.canonical)),
    .str c.scopeLock]

/-- `compute_operation_contract_fingerprint`. -/
def computeOperationContractFingerprint (env : FingerprintRuntime) (c : OperationContract) :
    String :=
  env.sha256 (String.ofList (c.canonical.repr env.printable))

/-! ### The text tells the fields -/

lemma nameTuple_injective : Function.Injective nameTuple := by
  intro as bs h
  have hmap := Literal.tuple.inj h
  exact List.map_injective_iff.mpr (fun a b hab => Literal.str.inj hab) hmap

lemma OperationTransition.canonical_injective :
    Function.Injective OperationTransition.canonical := by
  intro t u h
  simp only [canonical, Literal.tuple.injEq, List.cons.injEq, Literal.str.injEq, and_true] at h
  obtain ⟨hsource, htarget, hevidence⟩ := h
  exact OperationTransition.ext hsource htarget (nameTuple_injective hevidence)

/-- The allowed transitions are not part of the text, but they are the edges of the transitions,
which are. -/
lemma canonical_eq_iff (c d : OperationContract) :
    c.canonical = d.canonical ↔ c.withoutProvenance = d.withoutProvenance := by
  constructor
  · intro h
    simp only [OperationContractFields.canonical, Literal.tuple.injEq, List.cons.injEq,
      Literal.str.injEq, Literal.bool.injEq, nameTuple_injective.eq_iff, and_true] at h
    obtain ⟨hdomain, hprimary, htarget, htargets, hdetails, hmutating, hevidence, hallowed,
      htransitions, hscope⟩ := h
    have htransitions' : c.transitionRequirements = d.transitionRequirements :=
      List.map_injective_iff.mpr OperationTransition.canonical_injective htransitions
    have hedges : c.allowedTransitions = d.allowedTransitions := by
      rw [c.valid.transitions_eq, d.valid.transitions_eq, OperationContractFields.edges,
        OperationContractFields.edges, htransitions']
    exact OperationContractFields.ext hdomain hprimary htarget htargets hdetails hmutating
      hevidence hallowed hedges htransitions' hscope rfl
  · intro h
    have hcanonical := congrArg OperationContractFields.canonical h
    exact hcanonical

/-- Under an injective hash two contracts have the same fingerprint exactly when they agree in
every field except the provenance. -/
lemma fingerprint_eq_iff {env : FingerprintRuntime} (hsha : Function.Injective env.sha256)
    (c d : OperationContract) :
    computeOperationContractFingerprint env c = computeOperationContractFingerprint env d ↔
      c.withoutProvenance = d.withoutProvenance := by
  rw [← canonical_eq_iff, computeOperationContractFingerprint,
    computeOperationContractFingerprint, hsha.eq_iff, String.ofList_inj,
    (repr_injective env.printable).eq_iff]

/-- A contract whose names are clean is parsed back from its dictionary, directly and after a
trip through JSON, with every field and its fingerprint, and is equal to it if no confidence is a
NaN; and the fingerprint tells every field of a contract except the provenance. -/
theorem contract_round_trip_and_fingerprint (env : FingerprintRuntime)
    (hsha : Function.Injective env.sha256) :
    (∀ c : OperationContract, IsName c.domain → IsName c.primaryOperation → IsName c.scopeLock →
      ∀ data, data = c.asdict ∨ c.asdict.jsonCopy = some data →
        ∃ parsed, parseOperationContract data = some parsed ∧ parsed = c ∧
          ((∀ row ∈ c.provenance, row.2.confidence ≠ .nan) → parsed.eq c = true) ∧
          computeOperationContractFingerprint env parsed =
            computeOperationContractFingerprint env c) ∧
    (∀ c : OperationContract, c.asdict.jsonCopy.isSome) ∧
    (∀ c d : OperationContract,
      computeOperationContractFingerprint env c = computeOperationContractFingerprint env d ↔
        c.withoutProvenance = d.withoutProvenance) := by
  refine ⟨?_, fun c => ?_, fingerprint_eq_iff hsha⟩
  · intro c hdomain hprimary hscope data hdata
    have hnamed : c.Named := ⟨hdomain, hprimary, hscope.2⟩
    refine ⟨c, ?_, rfl, OperationContract.eq_self, rfl⟩
    rcases hdata with rfl | hjson
    · exact parseOperationContract_entries (fun _ => rfl) c hnamed
    · rw [jsonCopy_asdict] at hjson
      obtain rfl := Option.some.inj hjson
      exact parseOperationContract_entries (fun _ => rfl) c hnamed
  · rw [jsonCopy_asdict]
    rfl

/-! ### A contract and its fingerprint -/

/-- The contract of a request for the list of containers, which allows to inspect one of
them. -/
def inventoryFields : OperationContractFields where
  domain := "container_runtime"
  primaryOperation := "list"
  target := ""
  targets := []
  detailFields := ["status"]
  mutatingAction := false
  requiredEvidence := ["container_inventory"]
  allowedOperations := ["list"]
  allowedTransitions := ["list->inspect"]
  transitionRequirements :=
    [⟨"list", "inspect", ["container_inspect"], by decide +kernel, by decide +kernel⟩]
  scopeLock := "home"
  provenance := [("predicate", { source := "rule", confidence := .finite 1 })]

lemma inventoryFields_valid : inventoryFields.Valid := by decide +kernel

def inventoryContract : OperationContract := ⟨inventoryFields, inventoryFields_valid⟩

/-- The text the fingerprint of that contract is taken over. -/
def inventoryText : String :=
  "('container_runtime', 'list', '', (), ('status',), False, ('container_inventory',), " ++
  "('list',), (('list', 'inspect', ('container_inspect',)),), 'home')"

/-- An injective hash that gives the SHA-256 of that text. -/
def inventoryHash : FingerprintRuntime where
  printable _ := true
  sha256 text :=
    if text = inventoryText then
      "9c514fea142972b7b0ad91b765b5f892721f70d5e6302dd854a45fdaae7272a6"
    else "text:" ++ text

lemma inventoryHash_injective : Function.Injective inventoryHash.sha256 := by
  have hne : ∀ text, "9c514fea142972b7b0ad91b765b5f892721f70d5e6302dd854a45fdaae7272a6" ≠
      "text:" ++ text := by
    intro text h
    have hlist := congrArg String.toList h
    rw [String.toList_append] at hlist
    exact absurd (List.cons.inj hlist).1 (by decide)
  intro s t h
  simp only [inventoryHash] at h
  split_ifs at h with hs ht ht
  · rw [hs, ht]
  · exact absurd h (hne t)
  · exact absurd h.symm (hne s)
  · exact (String.append_right_inj "text:").mp h

/-- The fingerprint of that contract, and that the contract survives JSON. -/
theorem inventory_fingerprint :
    computeOperationContractFingerprint inventoryHash inventoryContract =
      "9c514fea142972b7b0ad91b765b5f892721f70d5e6302dd854a45fdaae7272a6" ∧
    ∃ data parsed, inventoryContract.asdict.jsonCopy = some data ∧
      parseOperationContract data = some parsed ∧ parsed.eq inventoryContract = true := by
  refine ⟨by decide +kernel, ?_⟩
  obtain ⟨hread, hjson, -⟩ := contract_round_trip_and_fingerprint inventoryHash
    inventoryHash_injective
  obtain ⟨data, hdata⟩ := Option.isSome_iff_exists.mp (hjson inventoryContract)
  obtain ⟨parsed, hparsed, -, heq, -⟩ := hread inventoryContract (by decide +kernel)
    (by decide +kernel) (by decide +kernel) data (.inr hdata)
  exact ⟨data, parsed, hdata, hparsed, heq (by decide +kernel)⟩

/-- The same contract, with a confidence that is no number. -/
def nanContract : OperationContract where
  toOperationContractFields :=
    { inventoryFields with provenance := [("predicate", { source := "rule", confidence := .nan })] }
  valid := by decide +kernel

/-- After a trip through JSON that contract is not equal to itself. -/
theorem not_equal_after_json :
    ¬∀ c : OperationContract, IsName c.domain → IsName c.primaryOperation → IsName c.scopeLock →
      ∀ data, c.asdict.jsonCopy = some data →
        ∃ parsed, parseOperationContract data = some parsed ∧ parsed.eq c = true := by
  intro h
  have hdomain : IsName nanContract.domain := by decide +kernel
  have hprimary : IsName nanContract.primaryOperation := by decide +kernel
  have hscope : IsName nanContract.scopeLock := by decide +kernel
  obtain ⟨parsed, hparsed, hequal⟩ :=
    h nanContract hdomain hprimary hscope _ (jsonCopy_asdict nanContract)
  rw [parseOperationContract_entries (fun _ => rfl) nanContract ⟨hdomain, hprimary, hscope.2⟩]
    at hparsed
  obtain rfl := Option.some.inj hparsed
  exact absurd hequal (by decide +kernel)

end Trion.RoutingFrame
