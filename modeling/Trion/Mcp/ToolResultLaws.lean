import Mathlib.Data.List.Basic
import Trion.Library.OrderedDict
import Trion.Mcp.ToolResultContracts

/-!
# Tool results on the wire

What freezing refuses and what it changes, and from it: an answer becomes an envelope exactly when
the numbers of its result are finite, and the mapping that goes over the wire is the result again,
from which the same envelope is made.
-/

namespace Trion.Mcp

open Trion.Python

/-! ### Freezing -/

mutual

/-- All numbers of a value are finite, and no part of it is a foreign object, which JSON does not
have. -/
def allFinite : PyVal → Bool
  | .dict entries => allFiniteEntries entries
  | .list items | .tuple items => allFiniteItems items
  | .float (.finite _) => true
  | .float _ | .object _ => false
  | _ => true

/-- The numbers of the items are finite. -/
def allFiniteItems : List PyVal → Bool
  | [] => true
  | item :: items => allFinite item && allFiniteItems items

/-- The numbers of the values are finite. -/
def allFiniteEntries : List (String × PyVal) → Bool
  | [] => true
  | (_, item) :: entries => allFinite item && allFiniteEntries entries

end

/-- The result of a call that refuses what is not finite. -/
def frozenIf {α : Type} (finite : Bool) (a : α) : Except PyError α :=
  if finite then .ok a else .error .typeError

private lemma frozenIf_map {α β : Type} (finite : Bool) (a : α) (f : α → β) :
    (frozenIf finite a).map f = frozenIf finite (f a) := by
  cases finite <;> rfl

private lemma frozenIf_bind {α β γ : Type} (p q : Bool) (a : α) (b : β) (f : α → β → γ) :
    (frozenIf p a >>= fun x => frozenIf q b >>= fun y => pure (f x y)) =
      frozenIf (p && q) (f a b) := by
  cases p <;> cases q <;> rfl

mutual

/-- Freezing refuses exactly what is not finite. -/
theorem freeze_eq : ∀ v : PyVal, freeze v = frozenIf (allFinite v) (freezeValue v)
  | .none | .bool _ | .int _ | .str _ | .object _ => rfl
  | .float (.finite _) | .float .inf | .float .negInf | .float .nan => rfl
  | .list items | .tuple items => by
    rw [freeze, freezeSequence_eq items, frozenIf_map]
    rfl
  | .dict entries => by
    rw [freeze, freezeMapping_eq entries, frozenIf_map]
    rfl

theorem freezeSequence_eq : ∀ items : List PyVal,
    freezeSequence items = frozenIf (allFiniteItems items) (freezeItems items)
  | [] => rfl
  | item :: items => by
    rw [freezeSequence, freeze_eq item, freezeSequence_eq items]
    exact frozenIf_bind _ _ _ _ List.cons

theorem freezeMapping_eq : ∀ entries : List (String × PyVal),
    freezeMapping entries = frozenIf (allFiniteEntries entries) (freezeEntries entries)
  | [] => rfl
  | (key, item) :: entries => by
    rw [freezeMapping, freeze_eq item, freezeMapping_eq entries]
    exact frozenIf_bind _ _ _ _ fun x y => (key, x) :: y

end

mutual

/-- What is frozen stays as it is. -/
theorem freezeValue_freezeValue : ∀ v : PyVal, freezeValue (freezeValue v) = freezeValue v
  | .none | .bool _ | .int _ | .str _ | .object _ | .float _ => rfl
  | .list items | .tuple items => congrArg PyVal.tuple (freezeItems_freezeItems items)
  | .dict entries => congrArg PyVal.dict (freezeEntries_freezeEntries entries)

theorem freezeItems_freezeItems : ∀ items : List PyVal,
    freezeItems (freezeItems items) = freezeItems items
  | [] => rfl
  | item :: items => by
    rw [freezeItems, freezeItems, freezeValue_freezeValue item, freezeItems_freezeItems items]

theorem freezeEntries_freezeEntries : ∀ entries : List (String × PyVal),
    freezeEntries (freezeEntries entries) = freezeEntries entries
  | [] => rfl
  | (key, item) :: entries => by
    rw [freezeEntries, freezeEntries, freezeValue_freezeValue item,
      freezeEntries_freezeEntries entries]

end

mutual

/-- The numbers stay finite. -/
theorem allFinite_freezeValue : ∀ v : PyVal, allFinite (freezeValue v) = allFinite v
  | .none | .bool _ | .int _ | .str _ | .object _ | .float _ => rfl
  | .list items | .tuple items => allFiniteItems_freezeItems items
  | .dict entries => allFiniteEntries_freezeEntries entries

theorem allFiniteItems_freezeItems : ∀ items : List PyVal,
    allFiniteItems (freezeItems items) = allFiniteItems items
  | [] => rfl
  | item :: items => by
    rw [freezeItems, allFiniteItems, allFiniteItems, allFinite_freezeValue item,
      allFiniteItems_freezeItems items]

theorem allFiniteEntries_freezeEntries : ∀ entries : List (String × PyVal),
    allFiniteEntries (freezeEntries entries) = allFiniteEntries entries
  | [] => rfl
  | (key, item) :: entries => by
    rw [freezeEntries, allFiniteEntries, allFiniteEntries, allFinite_freezeValue item,
      allFiniteEntries_freezeEntries entries]

end

mutual

/-- A JSON value has finite numbers and comes back from being frozen. -/
theorem plain_freezeValue : ∀ {v : PyVal}, v.isJson = true →
    allFinite v = true ∧ plain (freezeValue v) = v
  | .none, _ | .bool _, _ | .int _, _ | .str _, _ | .float (.finite _), _ => ⟨rfl, rfl⟩
  | .float .inf, h | .float .negInf, h | .float .nan, h | .tuple _, h | .object _, h => by
    simp [PyVal.isJson] at h
  | .list items, h => by
    obtain ⟨hfinite, hplain⟩ := @plainItems_freezeItems items h
    exact ⟨hfinite, congrArg PyVal.list hplain⟩
  | .dict entries, h => by
    obtain ⟨hfinite, hplain⟩ := @plainEntries_freezeEntries entries h
    exact ⟨hfinite, congrArg PyVal.dict hplain⟩

theorem plainItems_freezeItems : ∀ {items : List PyVal}, PyVal.isJsonItems items = true →
    allFiniteItems items = true ∧ plainItems (freezeItems items) = items
  | [], _ => ⟨rfl, rfl⟩
  | item :: items, h => by
    obtain ⟨hitem, hitems⟩ := Bool.and_eq_true_iff.mp h
    obtain ⟨hfinite, hplain⟩ := plain_freezeValue hitem
    obtain ⟨hrest, hrestPlain⟩ := plainItems_freezeItems hitems
    rw [allFiniteItems, hfinite, hrest, freezeItems, plainItems, hplain, hrestPlain]
    exact ⟨rfl, rfl⟩

theorem plainEntries_freezeEntries : ∀ {entries : List (String × PyVal)},
    PyVal.isJsonEntries entries = true →
      allFiniteEntries entries = true ∧ plainEntries (freezeEntries entries) = entries
  | [], _ => ⟨rfl, rfl⟩
  | (key, item) :: entries, h => by
    obtain ⟨hitem, hitems⟩ := Bool.and_eq_true_iff.mp h
    obtain ⟨hfinite, hplain⟩ := plain_freezeValue hitem
    obtain ⟨hrest, hrestPlain⟩ := plainEntries_freezeEntries hitems
    rw [allFiniteEntries, hfinite, hrest, freezeEntries, plainEntries, hplain, hrestPlain]
    exact ⟨rfl, rfl⟩

end

lemma lookup_freezeEntries (entries : PyDict) (key : String) :
    (freezeEntries entries).lookup key = (entries.lookup key).map freezeValue := by
  induction entries with
  | nil => rfl
  | cons e entries ih =>
    obtain ⟨k, v⟩ := e
    rw [freezeEntries, List.lookup_cons, List.lookup_cons]
    cases key == k
    · exact ih
    · rfl

lemma isJson_of_lookup {payload : PyDict} (h : (PyVal.dict payload).isJson = true) {key : String}
    {v : PyVal} (hv : payload.lookup key = some v) : v.isJson = true := by
  have hall := isJsonEntries_iff.mp h
  induction payload with
  | nil => simp at hv
  | cons e payload ih =>
    obtain ⟨k, w⟩ := e
    rw [List.lookup_cons] at hv
    split at hv
    · obtain rfl := Option.some.inj hv
      exact hall (k, w) List.mem_cons_self
    · exact ih (isJsonEntries_iff.mpr fun e he => hall e (List.mem_cons_of_mem _ he)) hv
        fun e he => hall e (List.mem_cons_of_mem _ he)

/-! ### Envelopes -/

lemma length_freezeItems (items : List PyVal) : (freezeItems items).length = items.length := by
  induction items with
  | nil => rfl
  | cons item items ih => exact congrArg (· + 1) ih

lemma length_freezeEntries (entries : PyDict) :
    (freezeEntries entries).length = entries.length := by
  induction entries with
  | nil => rfl
  | cons e entries ih => exact congrArg (· + 1) ih

/-- A field with its value frozen. -/
def frozenField (field : MCPResultPresence × PyVal) : MCPResultPresence × PyVal :=
  (field.1, freezeValue field.2)

/-- Freezing the payload freezes the fields that are taken from it. -/
lemma contentField_freezeEntries (payload : PyDict) :
    contentField (freezeEntries payload) = (contentField payload).map frozenField := by
  unfold contentField
  rw [lookup_freezeEntries]
  cases payload.lookup "content" with
  | none => rfl
  | some v =>
    cases v with
    | list items | tuple items =>
      exact congrArg (fun n => some (presenceOf n, PyVal.tuple (freezeItems items)))
        (length_freezeItems items)
    | _ => rfl

lemma structuredField_freezeEntries (payload : PyDict) :
    structuredField (freezeEntries payload) = (structuredField payload).map frozenField := by
  unfold structuredField
  rw [lookup_freezeEntries]
  cases payload.lookup "structuredContent" with
  | none => rfl
  | some v =>
    cases v with
    | dict entries =>
      exact congrArg (fun n => some (presenceOf n, PyVal.dict (freezeEntries entries)))
        (length_freezeEntries entries)
    | _ => rfl

lemma isErrorField_freezeEntries (payload : PyDict) :
    isErrorField (freezeEntries payload) = isErrorField payload := by
  unfold isErrorField
  rw [lookup_freezeEntries]
  cases payload.lookup "isError" with
  | none => rfl
  | some v => cases v <;> rfl

lemma validateContent_of_field {e : MCPToolResultEnvelope} {payload : PyDict}
    (h : contentField payload = some (e.contentPresence, e.content)) :
    e.validateContent = .ok () := by
  unfold contentField at h
  unfold MCPToolResultEnvelope.validateContent
  split at h
  · obtain ⟨hpresence, hcontent⟩ := Prod.mk.inj (Option.some.inj h)
    rw [← hpresence, ← hcontent]
  · rename_i items _
    obtain ⟨hpresence, hcontent⟩ := Prod.mk.inj (Option.some.inj h)
    rw [← hpresence, ← hcontent]
    cases items <;> simp [presenceOf]
  · rename_i items _
    obtain ⟨hpresence, hcontent⟩ := Prod.mk.inj (Option.some.inj h)
    rw [← hpresence, ← hcontent]
    cases items <;> simp [presenceOf]
  · cases h

lemma validateStructuredContent_of_field {e : MCPToolResultEnvelope} {payload : PyDict}
    (h : structuredField payload = some (e.structuredContentPresence, e.structuredContent)) :
    e.validateStructuredContent = .ok () := by
  unfold structuredField at h
  unfold MCPToolResultEnvelope.validateStructuredContent
  split at h
  · obtain ⟨hpresence, hcontent⟩ := Prod.mk.inj (Option.some.inj h)
    rw [← hpresence, ← hcontent]
  · rename_i entries _
    obtain ⟨hpresence, hcontent⟩ := Prod.mk.inj (Option.some.inj h)
    rw [← hpresence, ← hcontent]
    cases entries <;> simp [presenceOf]
  · cases h

lemma validateIsError_of_field {e : MCPToolResultEnvelope} {payload : PyDict}
    (h : isErrorField payload = some (e.isErrorPresence, e.isError)) :
    e.validateIsError = .ok () := by
  unfold isErrorField at h
  unfold MCPToolResultEnvelope.validateIsError
  split at h
  · obtain ⟨hpresence, hvalue⟩ := Prod.mk.inj (Option.some.inj h)
    rw [← hpresence, ← hvalue]
  · obtain ⟨hpresence, hvalue⟩ := Prod.mk.inj (Option.some.inj h)
    rw [← hpresence, ← hvalue]
  · cases h

/-- The status of an answer with this `isError`. -/
def answerStatus (isError : PyVal) : MCPToolCallStatus :=
  if isError matches .bool true then .toolFailure else .success

/-- The envelope of an answer with these fields. -/
def answerEnvelope (content structured isError : MCPResultPresence × PyVal) :
    MCPToolResultEnvelope where
  status := answerStatus isError.2
  contentPresence := content.1
  content := content.2
  structuredContentPresence := structured.1
  structuredContent := structured.2
  isErrorPresence := isError.1
  isError := isError.2

lemma validateStatus_answerEnvelope (content structured isError : MCPResultPresence × PyVal) :
    (answerEnvelope content structured isError).validateStatus = .ok () := by
  obtain ⟨presence, value⟩ := isError
  unfold MCPToolResultEnvelope.validateStatus MCPToolResultEnvelope.isErrorTrue answerEnvelope
    answerStatus
  cases value with
  | bool b => cases b <;> simp [isNone]
  | _ => simp [isNone]

/-- An answer with fields of the right kinds becomes an envelope exactly when their numbers are
finite. -/
lemma projectPayload_of_fields {payload : PyDict}
    {content structured isError : MCPResultPresence × PyVal}
    (hcontent : contentField payload = some content)
    (hstructured : structuredField payload = some structured)
    (hisError : isErrorField payload = some isError) :
    projectPayload payload = frozenIf (allFinite content.2 && allFinite structured.2)
      (answerEnvelope (frozenField content) (frozenField structured) isError) := by
  have hproject : projectPayload payload =
      (answerEnvelope content structured isError).postInit := by
    unfold projectPayload
    rw [hcontent, hstructured, hisError]
    rfl
  rw [hproject, MCPToolResultEnvelope.postInit, validateContent_of_field hcontent,
    validateStructuredContent_of_field hstructured, validateIsError_of_field hisError,
    validateStatus_answerEnvelope]
  simp only [bind_ok, freeze_eq]
  exact frozenIf_bind _ _ _ _ fun x y =>
    { answerEnvelope content structured isError with content := x, structuredContent := y }

/-- The envelope of something that is no result. -/
lemma postInit_protocolFailure :
    MCPToolResultEnvelope.postInit { status := .protocolFailure } =
      .ok { status := .protocolFailure } := rfl

/-- The envelope of an error. -/
lemma postInit_protocolError (error : PyDict) :
    MCPToolResultEnvelope.postInit { status := .protocolFailure, protocolError := .dict error } =
      (freeze (.dict error)).map fun frozen =>
        { status := .protocolFailure, protocolError := frozen } := by
  unfold MCPToolResultEnvelope.postInit
  generalize freeze (.dict error) = frozen
  cases frozen <;> rfl

lemma projectPayload_of_illTyped {payload : PyDict}
    (h : contentField payload = none ∨ structuredField payload = none ∨
      isErrorField payload = none) :
    projectPayload payload = .ok { status := .protocolFailure } := by
  unfold projectPayload
  split
  · rename_i content structured isError hcontent hstructured hisError
    rw [hcontent, hstructured, hisError] at h
    simp at h
  · exact postInit_protocolFailure

/-! ### Every answer becomes an envelope -/

/-- The outcomes there are. -/
inductive MCPTransportRequestOutcome.Shape (o : MCPTransportRequestOutcome) : Prop
  | answered (hstatus : o.status = .ok) (hpayload : o.payloadValue ≠ .none)
      (herror : o.protocolError = none)
  | refused (hstatus : o.status = .protocolFailure) (hpayload : o.payloadValue = .none)
  | unanswered (text : String) (hstatus : o.status = .transportFailure)
      (hpayload : o.payloadValue = .none) (herror : o.protocolError = none)
      (hdiagnostic : o.transportDiagnostic = some text) (htext : text ≠ "")

private lemma isNone_iff {v : PyVal} : isNone v = true ↔ v = .none := by
  cases v <;> simp [isNone]

lemma shape_of_postInit {o o' : MCPTransportRequestOutcome} (h : o.postInit = .ok o') :
    o' = o.frozen ∧ o.Shape := by
  unfold MCPTransportRequestOutcome.postInit at h
  split at h
  · rename_i hstatus
    split at h
    · cases h
    · rename_i hvalid
      obtain rfl := Except.ok.inj h
      simp only [not_or, isNone_iff, Bool.not_eq_true, Option.isSome_eq_false_iff,
        Option.isNone_iff_eq_none] at hvalid
      exact ⟨rfl, .answered hstatus hvalid.1 hvalid.2.2.1⟩
  · rename_i hstatus
    split at h
    · cases h
    · rename_i hvalid
      simp only [not_or, Bool.not_eq_true', Bool.not_eq_false, isNone_iff] at hvalid
      refine ⟨?_, .refused hstatus hvalid.1⟩
      split at h
      · split at h
        · cases h
        · exact (Except.ok.inj h).symm
      · split at h
        · cases h
        · exact (Except.ok.inj h).symm
      · cases h
  · rename_i hstatus
    split at h
    · cases h
    · rename_i hvalid
      simp only [not_or, Bool.not_eq_true', Bool.not_eq_false, isNone_iff, Bool.not_eq_true, Option.isSome_eq_false_iff,
        Option.isNone_iff_eq_none] at hvalid
      split at h
      · cases h
      · rename_i htext
        cases hdiagnostic : o.transportDiagnostic with
        | none => exact absurd (by rw [hdiagnostic]; rfl) htext
        | some text =>
          rw [hdiagnostic] at htext
          exact ⟨(Except.ok.inj h).symm,
            .unanswered text hstatus hvalid.1 hvalid.2.2 hdiagnostic htext⟩

/-- The fields of a result are of their kinds. -/
def HasResultFields (payload : PyDict) : Prop :=
  contentField payload ≠ none ∧ structuredField payload ≠ none ∧ isErrorField payload ≠ none

/-- The numbers of the result, or of the error, are finite. -/
structure MCPTransportRequestOutcome.FiniteNumbers (o : MCPTransportRequestOutcome) : Prop where
  result : ∀ payload, o.payloadValue = .dict payload → HasResultFields payload →
    ∀ key ∈ ["content", "structuredContent"], ∀ v, payload.lookup key = some v →
      allFinite v = true
  error : ∀ error, o.protocolError = some error → allFiniteEntries error = true

lemma frozen_payloadValue (o : MCPTransportRequestOutcome) :
    o.frozen.payloadValue = freezeValue o.payloadValue := by
  unfold MCPTransportRequestOutcome.payloadValue MCPTransportRequestOutcome.frozen
  cases o.payload <;> rfl

/-- The value of a field is finite when the one it was taken from is. -/
lemma allFinite_contentField {payload : PyDict} {field : MCPResultPresence × PyVal}
    (h : contentField payload = some field) :
    allFinite field.2 = true ↔ ∀ v, payload.lookup "content" = some v → allFinite v = true := by
  unfold contentField at h
  split at h
  · rename_i hnone
    obtain rfl := Option.some.inj h
    simp [hnone, allFinite]
  all_goals
    rename_i hsome
    first
      | obtain rfl := Option.some.inj h
        simp [hsome]
      | cases h

lemma allFinite_structuredField {payload : PyDict} {field : MCPResultPresence × PyVal}
    (h : structuredField payload = some field) : allFinite field.2 = true ↔
      ∀ v, payload.lookup "structuredContent" = some v → allFinite v = true := by
  unfold structuredField at h
  split at h
  · rename_i hnone
    obtain rfl := Option.some.inj h
    simp [hnone, allFinite]
  all_goals
    rename_i hsome
    first
      | obtain rfl := Option.some.inj h
        simp [hsome]
      | cases h

private lemma exists_frozenIf {α : Type} {finite : Bool} {a : α} :
    (∃ b, frozenIf finite a = .ok b) ↔ finite = true := by
  cases finite <;> simp [frozenIf]

/-- What a frozen payload becomes. -/
lemma projectPayload_freezeEntries {payload : PyDict} :
    (∃ e, projectPayload (freezeEntries payload) = .ok e) ↔
      (HasResultFields payload → ∀ key ∈ ["content", "structuredContent"], ∀ v,
        payload.lookup key = some v → allFinite v = true) := by
  cases hcontent : contentField payload with
  | none =>
    have hnone := @projectPayload_of_illTyped (freezeEntries payload)
      (.inl (by rw [contentField_freezeEntries, hcontent]; rfl))
    exact ⟨fun _ h => absurd hcontent h.1, fun _ => ⟨_, hnone⟩⟩
  | some content =>
    cases hstructured : structuredField payload with
    | none =>
      have hnone := @projectPayload_of_illTyped (freezeEntries payload)
        (.inr (.inl (by rw [structuredField_freezeEntries, hstructured]; rfl)))
      exact ⟨fun _ h => absurd hstructured h.2.1, fun _ => ⟨_, hnone⟩⟩
    | some structured =>
      cases hisError : isErrorField payload with
      | none =>
        have hnone := @projectPayload_of_illTyped (freezeEntries payload)
          (.inr (.inr (by rw [isErrorField_freezeEntries, hisError])))
        exact ⟨fun _ h => absurd hisError h.2.2, fun _ => ⟨_, hnone⟩⟩
      | some isError =>
        have hfields : HasResultFields payload := by
          simp [HasResultFields, hcontent, hstructured, hisError]
        rw [projectPayload_of_fields (by rw [contentField_freezeEntries, hcontent]; rfl)
          (by rw [structuredField_freezeEntries, hstructured]; rfl)
          (by rw [isErrorField_freezeEntries, hisError]), exists_frozenIf, Bool.and_eq_true,
          frozenField, frozenField, allFinite_freezeValue, allFinite_freezeValue,
          allFinite_contentField hcontent, allFinite_structuredField hstructured]
        simp [hfields]

/-- An outcome becomes an envelope exactly when the numbers of its result and of its error are
finite. -/
theorem projectToolResultEnvelope_returns_iff {o o' : MCPTransportRequestOutcome}
    (h : o.postInit = .ok o') :
    (∃ e, projectToolResultEnvelope o' = .ok e) ↔ o.FiniteNumbers := by
  obtain ⟨rfl, hshape⟩ := shape_of_postInit h
  unfold projectToolResultEnvelope
  cases hshape with
  | answered hstatus hpayload herror =>
    have hnoError : ∀ error, o.protocolError = some error → allFiniteEntries error = true := by
      simp [herror]
    have hstatus' : o.frozen.status = .ok := hstatus
    rw [hstatus', frozen_payloadValue]
    cases hvalue : o.payloadValue with
    | dict payload =>
      refine (@projectPayload_freezeEntries payload).trans ⟨fun hfinite => ?_, ?_⟩
      · refine ⟨fun payload' hpayload' => ?_, hnoError⟩
        obtain rfl := PyVal.dict.inj (hvalue.symm.trans hpayload')
        exact hfinite
      · exact fun hfinite => hfinite.result payload hvalue
    | none => exact absurd hvalue hpayload
    | _ => exact ⟨fun _ => ⟨by simp [hvalue], hnoError⟩, fun _ => ⟨_, postInit_protocolFailure⟩⟩
  | refused hstatus hpayload =>
    have hstatus' : o.frozen.status = .protocolFailure := hstatus
    have herror' : o.frozen.protocolError = o.protocolError.map freezeEntries := rfl
    rw [hstatus', herror']
    cases herror : o.protocolError with
    | none =>
      exact ⟨fun _ => ⟨by simp [hpayload], by simp [herror]⟩,
        fun _ => ⟨_, postInit_protocolFailure⟩⟩
    | some error =>
      have hpost : MCPToolResultEnvelope.postInit
          { status := .protocolFailure, protocolError := .dict (freezeEntries error) } =
            frozenIf (allFiniteEntries error)
              { status := .protocolFailure, protocolError := .dict (freezeEntries error) } := by
        rw [postInit_protocolError, freeze_eq, frozenIf_map, allFinite,
          allFiniteEntries_freezeEntries, freezeValue, freezeEntries_freezeEntries]
      refine (exists_congr fun e => by rw [← hpost]; rfl).trans (exists_frozenIf.trans ?_)
      constructor
      · exact fun hfinite => ⟨by simp [hpayload], by simp [herror, hfinite]⟩
      · exact fun hfinite => hfinite.error error herror
  | unanswered text hstatus hpayload herror hdiagnostic htext =>
    have hstatus' : o.frozen.status = .transportFailure := hstatus
    have hdiagnostic' : o.frozen.transportDiagnostic = some text := hdiagnostic
    rw [hstatus', hdiagnostic']
    refine ⟨fun _ => ⟨by simp [hpayload], by simp [herror]⟩, fun _ => ?_⟩
    refine ⟨{ status := .transportFailure, transportDiagnostic := .str text }, ?_⟩
    have hstatus : MCPToolResultEnvelope.validateStatus
        { status := .transportFailure, transportDiagnostic := .str text } = .ok () :=
      if_neg htext
    show MCPToolResultEnvelope.postInit
      { status := .transportFailure, transportDiagnostic := .str text } = _
    rw [MCPToolResultEnvelope.postInit, hstatus]
    rfl

/-- An answer whose text has a number that is not finite. -/
def nanAnswer : MCPTransportRequestOutcome :=
  .answered (.dict [("content", .list [.dict [("value", .float .nan)]])])

theorem projectToolResultEnvelope_nan :
    ∃ o, nanAnswer.postInit = .ok o ∧ ¬∃ e, projectToolResultEnvelope o = .ok e := by
  refine ⟨nanAnswer.frozen, rfl, ?_⟩
  rintro ⟨e, he⟩
  have hraised : projectToolResultEnvelope nanAnswer.frozen = .error .typeError := rfl
  rw [hraised] at he
  cases he

/-- An answer with a finite number. -/
def numberAnswer : MCPTransportRequestOutcome :=
  .answered (.dict [("content", .list [.dict [("value", .float (.finite (3 / 2)))]])])

theorem projectToolResultEnvelope_returns_number :
    ∃ e, projectToolResultEnvelope numberAnswer.frozen = .ok e :=
  (@projectToolResultEnvelope_returns_iff numberAnswer _ rfl).mpr
    { result := by
        intro payload hpayload _ key hkey v hv
        obtain rfl := PyVal.dict.inj hpayload
        simp only [List.mem_cons, List.not_mem_nil, or_false] at hkey
        rcases hkey with rfl | rfl
        · obtain rfl := Option.some.inj hv
          rfl
        · cases hv
      error := by simp [numberAnswer, MCPTransportRequestOutcome.answered] }

/-! ### The mapping that goes over the wire -/

/-- The fields of a result that go over the wire. -/
def resultFields : List String := ["content", "structuredContent", "isError"]

/-- The entries of a mapping under these keys, in the order of the keys. -/
def restrictTo (keys : List String) (payload : PyDict) : PyDict :=
  keys.filterMap fun key => (payload.lookup key).map fun v => (key, v)

lemma lookup_restrictTo (keys : List String) (payload : PyDict) (key : String) :
    (restrictTo keys payload).lookup key = if key ∈ keys then payload.lookup key else none := by
  induction keys with
  | nil => rfl
  | cons k keys ih =>
    unfold restrictTo at ih ⊢
    rw [List.filterMap_cons]
    by_cases hkey : key = k
    · subst hkey
      rw [if_pos List.mem_cons_self]
      cases h : payload.lookup key with
      | none =>
        rw [h] at ih
        simpa using ih
      | some v => simp
    · have hmem : key ∈ k :: keys ↔ key ∈ keys := by simp [hkey]
      rw [if_congr hmem rfl rfl, ← ih]
      cases payload.lookup k with
      | none => rfl
      | some v =>
        have hne : (key == k) = false := beq_false_of_ne hkey
        rw [Option.map_some, List.lookup_cons, hne]

lemma keys_restrictTo_sublist (keys : List String) (payload : PyDict) :
    (OrderedDict.keys (restrictTo keys payload)).Sublist keys := by
  induction keys with
  | nil => exact .slnil
  | cons k keys ih =>
    unfold restrictTo at ih ⊢
    rw [List.filterMap_cons]
    cases payload.lookup k with
    | none => exact ih.cons k
    | some v => exact ih.cons_cons k

/-- The envelope depends on these fields only. -/
lemma projectPayload_congr {p q : PyDict} (h : ∀ key ∈ resultFields, p.lookup key = q.lookup key) :
    projectPayload p = projectPayload q := by
  unfold projectPayload contentField structuredField isErrorField
  rw [h "content" (by decide), h "structuredContent" (by decide), h "isError" (by decide)]

lemma frozenField_frozenField (field : MCPResultPresence × PyVal) :
    frozenField (frozenField field) = frozenField field :=
  Prod.ext rfl (freezeValue_freezeValue field.2)

/-- A field of an envelope, with what was found in the payload. -/
inductive FieldOf : Option PyVal → MCPResultPresence × PyVal → Prop
  | missing : FieldOf none (.missing, .none)
  | present (v : PyVal) {presence : MCPResultPresence} (h : presence ≠ .missing) :
      FieldOf (some v) (presence, v)

private lemma presenceOf_ne_missing (n : ℕ) : presenceOf n ≠ .missing := by
  unfold presenceOf
  split <;> simp

lemma fieldOf_contentField {payload : PyDict} {field : MCPResultPresence × PyVal}
    (h : contentField payload = some field) : FieldOf (payload.lookup "content") field := by
  unfold contentField at h
  split at h
  · rename_i hnone
    obtain rfl := Option.some.inj h
    exact hnone ▸ .missing
  · rename_i hsome
    obtain rfl := Option.some.inj h
    exact hsome ▸ .present _ (presenceOf_ne_missing _)
  · rename_i hsome
    obtain rfl := Option.some.inj h
    exact hsome ▸ .present _ (presenceOf_ne_missing _)
  · cases h

lemma fieldOf_structuredField {payload : PyDict} {field : MCPResultPresence × PyVal}
    (h : structuredField payload = some field) :
    FieldOf (payload.lookup "structuredContent") field := by
  unfold structuredField at h
  split at h
  · rename_i hnone
    obtain rfl := Option.some.inj h
    exact hnone ▸ .missing
  · rename_i hsome
    obtain rfl := Option.some.inj h
    exact hsome ▸ .present _ (presenceOf_ne_missing _)
  · cases h

lemma fieldOf_isErrorField {payload : PyDict} {field : MCPResultPresence × PyVal}
    (h : isErrorField payload = some field) : FieldOf (payload.lookup "isError") field := by
  unfold isErrorField at h
  split at h
  · rename_i hnone
    obtain rfl := Option.some.inj h
    exact hnone ▸ .missing
  · rename_i hsome
    obtain rfl := Option.some.inj h
    exact hsome ▸ .present _ (by decide)
  · cases h

/-- The entry of the mapping for a field: the value as it was found. -/
lemma FieldOf.entry {found : Option PyVal} {field : MCPResultPresence × PyVal}
    (h : FieldOf found field) (key : String) :
    (if field.1 ≠ .missing then [(key, field.2)] else []) =
      (found.map fun v => (key, v)).toList := by
  cases h with
  | missing => rfl
  | present v hpresence => exact if_pos hpresence

/-- A JSON value is thawed to what it was. -/
lemma FieldOf.entry_plain {found : Option PyVal} {field : MCPResultPresence × PyVal}
    (h : FieldOf found field) (hjson : ∀ v, found = some v → v.isJson = true) (key : String) :
    (if field.1 ≠ .missing then [(key, plain (freezeValue field.2))] else []) =
      (found.map fun v => (key, v)).toList := by
  cases h with
  | missing => rfl
  | present v hpresence =>
    rw [(plain_freezeValue (hjson v rfl)).2]
    exact if_pos hpresence

/-- The mapping of the envelope of a JSON result is the result with the fields of a result. -/
lemma wireMapping_answerEnvelope {payload : PyDict} (hjson : (PyVal.dict payload).isJson = true)
    {content structured isError : MCPResultPresence × PyVal}
    (hcontent : contentField payload = some content)
    (hstructured : structuredField payload = some structured)
    (hisError : isErrorField payload = some isError) :
    projectToolResultWireMapping
        (answerEnvelope (frozenField content) (frozenField structured) isError) =
      restrictTo resultFields payload := by
  have hcontent' := (fieldOf_contentField hcontent).entry_plain
    (fun v hv => isJson_of_lookup hjson hv) "content"
  have hstructured' := (fieldOf_structuredField hstructured).entry_plain
    (fun v hv => isJson_of_lookup hjson hv) "structuredContent"
  have hisError' := (fieldOf_isErrorField hisError).entry "isError"
  have hparts : restrictTo resultFields payload =
      ((payload.lookup "content").map fun v => ("content", v)).toList ++
        ((payload.lookup "structuredContent").map fun v => ("structuredContent", v)).toList ++
          ((payload.lookup "isError").map fun v => ("isError", v)).toList := by
    unfold restrictTo resultFields
    simp only [List.filterMap_cons, List.filterMap_nil]
    cases payload.lookup "content" <;> cases payload.lookup "structuredContent" <;>
      cases payload.lookup "isError" <;> rfl
  have happend (c : Prop) [Decidable c] (result part : PyDict) :
      (if c then result ++ part else result) = result ++ if c then part else [] := by
    split
    · rfl
    · exact (List.append_nil result).symm
  rw [hparts, ← hcontent', ← hstructured', ← hisError', ← happend, ← happend]
  rfl

/-- The status of a result by its `isError`. -/
def resultStatus (payload : PyDict) : MCPToolCallStatus :=
  match payload.lookup "isError" with
  | some (.bool true) => .toolFailure
  | _ => .success

lemma answerStatus_eq_resultStatus {payload : PyDict} {field : MCPResultPresence × PyVal}
    (h : isErrorField payload = some field) : answerStatus field.2 = resultStatus payload := by
  unfold resultStatus
  have hfield := fieldOf_isErrorField h
  generalize payload.lookup "isError" = found at hfield ⊢
  cases hfield with
  | missing => rfl
  | present v hpresence =>
    unfold answerStatus
    split <;> simp_all

/-- A JSON payload with the fields of a result, each of its type where it is there, becomes an
envelope with the status by its `isError`; the mapping over the wire is the payload with the fields
of a result, as they were, and the envelope of the mapping is the envelope again.  Any other JSON
payload is a failure of the protocol. -/
theorem wireMapping_of_json {payload : PyDict} (hjson : (PyVal.dict payload).isJson = true) :
    ∃ o e, (MCPTransportRequestOutcome.answered (.dict payload)).postInit = .ok o ∧
      projectToolResultEnvelope o = .ok e ∧
      (HasResultFields payload →
        e.status = resultStatus payload ∧
        (OrderedDict.keys (projectToolResultWireMapping e)).Nodup ∧
        (∀ key, (projectToolResultWireMapping e).lookup key =
          if key ∈ resultFields then payload.lookup key else none) ∧
        ∃ o', (MCPTransportRequestOutcome.answered
            (.dict (projectToolResultWireMapping e))).postInit = .ok o' ∧
          projectToolResultEnvelope o' = .ok e) ∧
      (¬HasResultFields payload → e.status = .protocolFailure) := by
  refine ⟨(MCPTransportRequestOutcome.answered (.dict payload)).frozen, ?_⟩
  have hproject (p : PyDict) : projectToolResultEnvelope
      (MCPTransportRequestOutcome.answered (.dict p)).frozen = projectPayload (freezeEntries p) :=
    rfl
  by_cases hfields : HasResultFields payload
  · obtain ⟨content, hcontent⟩ := Option.ne_none_iff_exists'.mp hfields.1
    obtain ⟨structured, hstructured⟩ := Option.ne_none_iff_exists'.mp hfields.2.1
    obtain ⟨isError, hisError⟩ := Option.ne_none_iff_exists'.mp hfields.2.2
    have hfinite {found : Option PyVal} {field : MCPResultPresence × PyVal}
        (h : FieldOf found field) (hfound : ∀ v, found = some v → v.isJson = true) :
        allFinite (frozenField field).2 = true := by
      rw [frozenField, allFinite_freezeValue]
      cases h with
      | missing => rfl
      | present v => exact (plain_freezeValue (hfound v rfl)).1
    have henvelope : projectPayload (freezeEntries payload) =
        .ok (answerEnvelope (frozenField content) (frozenField structured) isError) := by
      rw [projectPayload_of_fields (by rw [contentField_freezeEntries, hcontent]; rfl)
        (by rw [structuredField_freezeEntries, hstructured]; rfl)
        (by rw [isErrorField_freezeEntries, hisError]),
        hfinite (fieldOf_contentField hcontent) fun v hv => isJson_of_lookup hjson hv,
        hfinite (fieldOf_structuredField hstructured) fun v hv => isJson_of_lookup hjson hv,
        frozenField_frozenField, frozenField_frozenField]
      rfl
    have hwire := wireMapping_answerEnvelope hjson hcontent hstructured hisError
    refine ⟨_, rfl, henvelope, fun _ => ?_, fun hnot => absurd hfields hnot⟩
    rw [hwire]
    refine ⟨answerStatus_eq_resultStatus hisError, (keys_restrictTo_sublist resultFields payload).nodup (by decide),
      lookup_restrictTo resultFields payload,
      (MCPTransportRequestOutcome.answered (.dict (restrictTo resultFields payload))).frozen, rfl, ?_⟩
    rw [hproject, ← henvelope]
    refine projectPayload_congr fun key hkey => ?_
    rw [lookup_freezeEntries, lookup_freezeEntries, lookup_restrictTo, if_pos hkey]
  · have hillTyped : contentField payload = none ∨ structuredField payload = none ∨
        isErrorField payload = none := by
      simp only [HasResultFields, not_and_or, not_not] at hfields
      exact hfields
    have hnone := @projectPayload_of_illTyped (freezeEntries payload) (by
      rw [contentField_freezeEntries, structuredField_freezeEntries, isErrorField_freezeEntries]
      simpa using hillTyped)
    exact ⟨_, rfl, (hproject payload).trans hnone, fun h => absurd h hfields, fun _ => rfl⟩

/-- A result with a text goes over the wire as it is. -/
theorem wireMapping_of_text_result :
    ∃ o e, (MCPTransportRequestOutcome.answered (.dict [("content", .list [.str "ok"])])).postInit =
        .ok o ∧
      projectToolResultEnvelope o = .ok e ∧ e.status = .success ∧
      (∀ key, (projectToolResultWireMapping e).lookup key = if key ∈ resultFields then
        List.lookup key [("content", .list [.str "ok"])] else none) ∧
      ∃ o', (MCPTransportRequestOutcome.answered
          (.dict (projectToolResultWireMapping e))).postInit = .ok o' ∧
        projectToolResultEnvelope o' = .ok e := by
  obtain ⟨o, e, ho, he, hresult, -⟩ :=
    @wireMapping_of_json [("content", .list [.str "ok"])] rfl
  obtain ⟨hstatus, -, hlookup, hagain⟩ := hresult (by
    refine ⟨?_, ?_, ?_⟩ <;> exact nofun)
  exact ⟨o, e, ho, he, hstatus, hlookup, hagain⟩

end Trion.Mcp
