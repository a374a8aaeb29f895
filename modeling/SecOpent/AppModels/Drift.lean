import SecOpent.AppModels.Models

/-!
# Drift of a model

`DriftDetector` of `application/drift_detector.py`: the transitions of two models are compared
endpoint by endpoint. A `dict` holds one transition for each endpoint, the last one, so the
transitions before it have no say in the comparison.

## Main definitions

* `DriftReport`, `DriftDetector.check`: the endpoints that were added, removed and changed
* `AppModelRecord.Overwritten`: a transition that a later one on the same endpoint hides
* `DriftSound`: where no drift is reported, the models use every endpoint in the same ways

## Main results

* `hasDrift_eq_false_iff`: no drift is reported exactly if the last transitions agree
* `driftSound_iff`: exactly when the report is sound
-/

namespace SecOpent

open Python

/-- `DriftReport`. -/
structure DriftReport where
  appId : String
  added : List String := []
  removed : List String := []
  changed : List String := []

/-- `has_drift`. -/
def DriftReport.hasDrift (report : DriftReport) : Bool :=
  !report.added.isEmpty || !report.removed.isEmpty || !report.changed.isEmpty

/-- What is compared of a transition: its parameters, and whether it is idempotent. -/
def ModelTransition.usage (t : ModelTransition) : List String × Bool := (t.params, t.idempotent)

namespace DriftDetector

/-- `{t.endpoint: t for t in model.transitions}`. -/
def endpoints (model : AppModelRecord) : Dict String ModelTransition :=
  .ofItems (model.content.transitions.map fun t => (t.endpoint, t))

/-- The transitions of both models on an endpoint differ. -/
def differs (current reimported : Dict String ModelTransition) (endpoint : String) : Bool :=
  match current.get? endpoint, reimported.get? endpoint with
  | some t, some t' => t.params != t'.params || t.idempotent != t'.idempotent
  | _, _ => false

/-- `check`. -/
def check (current reimported : AppModelRecord) : DriftReport :=
  let currentEps := endpoints current
  let newEps := endpoints reimported
  { appId := current.content.appId
    added := (newEps.keys.filter (· ∉ currentEps.keys)).insertionSort (· ≤ ·)
    removed := (currentEps.keys.filter (· ∉ newEps.keys)).insertionSort (· ≤ ·)
    changed := ((currentEps.keys.filter (· ∈ newEps.keys)).filter
      (differs currentEps newEps)).insertionSort (· ≤ ·) }

end DriftDetector

namespace AppModelRecord

/-- A transition of the model on an endpoint has these parameters and this idempotency. -/
def Uses (model : AppModelRecord) (endpoint : String) (usage : List String × Bool) : Prop :=
  ∃ t ∈ model.content.transitions, t.endpoint = endpoint ∧ t.usage = usage

/-- The last transition of the model on an endpoint. -/
def lastOn (model : AppModelRecord) (endpoint : String) : Option ModelTransition :=
  model.content.transitions.reverse.find? fun t => t.endpoint = endpoint

/-- A later transition of the model is on the same endpoint. -/
def Overwritten (model : AppModelRecord) (t : ModelTransition) : Prop :=
  ∃ before after, model.content.transitions = before ++ t :: after ∧
    ∃ later ∈ after, later.endpoint = t.endpoint

end AppModelRecord

/-- If no drift is reported, each endpoint of one model is one of the other model, and is used there in
the same ways. -/
def DriftSound (current reimported : AppModelRecord) : Prop :=
  (DriftDetector.check current reimported).hasDrift = false →
    (∀ endpoint, (∃ t ∈ current.content.transitions, t.endpoint = endpoint) ↔
      ∃ t ∈ reimported.content.transitions, t.endpoint = endpoint) ∧
    ∀ endpoint usage, current.Uses endpoint usage ↔ reimported.Uses endpoint usage

/-- The last transitions on each endpoint agree, if there are any. -/
def LastAgree (current reimported : AppModelRecord) : Prop :=
  ∀ endpoint, (current.lastOn endpoint).map ModelTransition.usage =
    (reimported.lastOn endpoint).map ModelTransition.usage

/-- What the overwritten transitions of a model do with an endpoint, the other model does too. -/
def OverwrittenCovered (model other : AppModelRecord) : Prop :=
  ∀ t, model.Overwritten t → other.Uses t.endpoint t.usage

section Spec

open DriftDetector

variable {model current reimported : AppModelRecord} {endpoint : String} {t : ModelTransition}

/-! ## The last transition on an endpoint -/

theorem endpoints_get? : (endpoints model).get? endpoint = model.lastOn endpoint :=
  Dict.get?_ofItems_map (fun t : ModelTransition => t.endpoint) _ _

theorem mem_of_lastOn (h : model.lastOn endpoint = some t) :
    t ∈ model.content.transitions ∧ t.endpoint = endpoint :=
  ⟨List.mem_reverse.mp (List.mem_of_find?_eq_some h), by simpa using List.find?_some h⟩

/-- A transition is the last one on its endpoint, or it is overwritten. -/
theorem lastOn_or_overwritten (h : t ∈ model.content.transitions) :
    model.lastOn t.endpoint = some t ∨ model.Overwritten t := by
  obtain ⟨before, after, hsplit⟩ := List.append_of_mem h
  by_cases hlater : ∃ later ∈ after, later.endpoint = t.endpoint
  · exact .inr ⟨before, after, hsplit, hlater⟩
  · -- Nothing on the endpoint comes after the transition, so the search from the end finds it.
    left
    have hnone : after.reverse.find? (fun later => later.endpoint = t.endpoint) = none := by
      simpa using hlater
    rw [AppModelRecord.lastOn, hsplit, List.reverse_append, List.reverse_cons, List.append_assoc,
      List.find?_append, hnone]
    simp

/-! ## What is reported -/

theorem differs_eq_false_iff (h : endpoint ∈ (endpoints current).keys)
    (h' : endpoint ∈ (endpoints reimported).keys) :
    differs (endpoints current) (endpoints reimported) endpoint = false ↔
      (current.lastOn endpoint).map ModelTransition.usage =
        (reimported.lastOn endpoint).map ModelTransition.usage := by
  rw [Dict.mem_keys, endpoints_get?, Option.ne_none_iff_exists'] at h h'
  obtain ⟨t, ht⟩ := h
  obtain ⟨t', ht'⟩ := h'
  simp [differs, endpoints_get?, ht, ht', ModelTransition.usage]

/-- No drift is reported exactly if both models have the same endpoints, and none of them differs. -/
theorem hasDrift_eq_false_iff_keys :
    (check current reimported).hasDrift = false ↔
      (∀ endpoint, endpoint ∈ (endpoints current).keys ↔ endpoint ∈ (endpoints reimported).keys) ∧
        ∀ endpoint ∈ (endpoints current).keys, endpoint ∈ (endpoints reimported).keys →
          differs (endpoints current) (endpoints reimported) endpoint = false := by
  simp only [DriftReport.hasDrift, check, Bool.or_eq_false_iff, Bool.not_eq_false',
    List.isEmpty_iff, List.eq_nil_iff_forall_not_mem, List.mem_insertionSort, List.mem_filter,
    decide_eq_true_eq, not_and, not_not, Bool.not_eq_true, and_imp]
  constructor
  · rintro ⟨⟨hadded, hremoved⟩, hchanged⟩
    exact ⟨fun endpoint => ⟨hremoved endpoint, hadded endpoint⟩, hchanged⟩
  · rintro ⟨hkeys, hchanged⟩
    exact ⟨⟨fun endpoint => (hkeys endpoint).mpr, fun endpoint => (hkeys endpoint).mp⟩, hchanged⟩

/-- **No drift is reported exactly if the last transitions agree.** -/
theorem hasDrift_eq_false_iff :
    (check current reimported).hasDrift = false ↔ LastAgree current reimported := by
  have hkey : ∀ {model : AppModelRecord} {endpoint}, endpoint ∈ (endpoints model).keys ↔
      model.lastOn endpoint ≠ none := fun {_ _} => by rw [Dict.mem_keys, endpoints_get?]
  -- An endpoint is a key where some transition is the last one on it.
  rw [hasDrift_eq_false_iff_keys]
  constructor
  · rintro ⟨hkeys, hchanged⟩ endpoint
    by_cases hmem : endpoint ∈ (endpoints current).keys
    · have hmem' := (hkeys endpoint).mp hmem
      exact (differs_eq_false_iff hmem hmem').mp (hchanged endpoint hmem hmem')
    · -- The endpoint is in neither model.
      have hnone : current.lastOn endpoint = none := by simpa [hkey] using hmem
      have hnone' : reimported.lastOn endpoint = none := by
        simpa [hkey] using mt (hkeys endpoint).mpr hmem
      rw [hnone, hnone']
  · intro h
    have hiff : ∀ endpoint, current.lastOn endpoint = none ↔ reimported.lastOn endpoint = none := by
      intro endpoint
      rw [← Option.map_eq_none_iff (f := ModelTransition.usage), h endpoint, Option.map_eq_none_iff]
    refine ⟨fun endpoint => ?_, fun endpoint hmem hmem' => (differs_eq_false_iff hmem hmem').mpr
      (h endpoint)⟩
    rw [hkey, hkey, Ne, Ne, hiff]

/-! ## When the report is sound -/

/-- Where the last transitions agree, what the last transition of a model does is done by the other
model. -/
theorem uses_of_lastOn (h : LastAgree current reimported) (hlast : current.lastOn endpoint = some t) :
    reimported.Uses endpoint t.usage := by
  have hagree := h endpoint
  rw [hlast, Option.map_some, eq_comm, Option.map_eq_some_iff] at hagree
  obtain ⟨t', hlast', husage⟩ := hagree
  obtain ⟨hmem, hendpoint⟩ := mem_of_lastOn hlast'
  exact ⟨t', hmem, hendpoint, husage⟩

/-- Where the last transitions agree, a model uses the endpoints as the other one does if its
overwritten transitions are covered. -/
theorem uses_of_covered (h : LastAgree current reimported)
    (hcovered : OverwrittenCovered current reimported) {usage : List String × Bool}
    (huses : current.Uses endpoint usage) : reimported.Uses endpoint usage := by
  obtain ⟨t, hmem, rfl, rfl⟩ := huses
  -- The last transitions agree, and the others are covered.
  rcases lastOn_or_overwritten hmem with hlast | hover
  · exact uses_of_lastOn h hlast
  · exact hcovered t hover

theorem overwritten_mem (h : model.Overwritten t) : t ∈ model.content.transitions := by
  obtain ⟨before, after, hsplit, -⟩ := h
  rw [hsplit]
  exact List.mem_append_right _ List.mem_cons_self

theorem LastAgree.symm (h : LastAgree current reimported) : LastAgree reimported current :=
  fun endpoint => (h endpoint).symm

end Spec

/-- **Drift detection is sound** exactly if the last transitions on some endpoint differ, or the
overwritten transitions of each model are covered by the other one. -/
theorem driftSound_iff (current reimported : AppModelRecord) :
    DriftSound current reimported ↔
      (LastAgree current reimported →
        OverwrittenCovered current reimported ∧ OverwrittenCovered reimported current) := by
  rw [DriftSound, hasDrift_eq_false_iff]
  refine imp_congr_right fun hagree => ?_
  constructor
  · -- An overwritten transition is one that the model has.
    rintro ⟨-, huses⟩
    exact ⟨fun t hover => (huses t.endpoint t.usage).mp ⟨t, overwritten_mem hover, rfl, rfl⟩,
      fun t hover => (huses t.endpoint t.usage).mpr ⟨t, overwritten_mem hover, rfl, rfl⟩⟩
  · rintro ⟨hcovered, hcovered'⟩
    have huses : ∀ endpoint usage, current.Uses endpoint usage ↔ reimported.Uses endpoint usage :=
      fun endpoint usage => ⟨uses_of_covered hagree hcovered, uses_of_covered hagree.symm hcovered'⟩
    refine ⟨fun endpoint => ⟨?_, ?_⟩, huses⟩
    · rintro ⟨t, hmem, hendpoint⟩
      obtain ⟨t', hmem', hendpoint', -⟩ := (huses endpoint t.usage).mp ⟨t, hmem, hendpoint, rfl⟩
      exact ⟨t', hmem', hendpoint'⟩
    · rintro ⟨t, hmem, hendpoint⟩
      obtain ⟨t', hmem', hendpoint', -⟩ := (huses endpoint t.usage).mpr ⟨t, hmem, hendpoint, rfl⟩
      exact ⟨t', hmem', hendpoint'⟩

/-- A till that is paid in two ways: as an order with parameters, and as an order without any. -/
def payModel (params : List String) : AppModelRecord where
  content :=
    { appId := "till", version := "3.0", states := ["open", "settled"]
      transitions :=
        [{ id := "order", fromState := "open", toState := "settled", endpoint := "POST /pay", params
           id_ne := by decide, fromState_ne := by decide, toState_ne := by decide
           endpoint_ne := by decide },
          { id := "reorder", fromState := "settled", toState := "settled", endpoint := "POST /pay"
            id_ne := by decide, fromState_ne := by decide, toState_ne := by decide
            endpoint_ne := by decide }]
      appId_ne := by decide, version_ne := by decide, states_ne := by decide }
  digest := "sha256:d0"
  digest_ne := by decide

/-- An order loses its parameter, and no drift is reported. -/
theorem lost_parameter_unreported : ¬DriftSound (payModel ["amount"]) (payModel []) := by
  intro h
  have hsilent : (DriftDetector.check (payModel ["amount"]) (payModel [])).hasDrift = false := by
    decide +kernel
  obtain ⟨-, huses⟩ := h hsilent
  have hcurrent : (payModel ["amount"]).Uses "POST /pay" (["amount"], false) :=
    ⟨_, List.mem_cons_self, rfl, rfl⟩
  obtain ⟨t, hmem, -, husage⟩ := (huses _ _).mp hcurrent
  have hnone : ∀ t ∈ (payModel []).content.transitions, t.usage ≠ (["amount"], false) := by decide
  exact hnone t hmem husage

end SecOpent
