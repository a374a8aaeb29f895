import SecOpent.Audit.Events
import SecOpent.Cases.Service

/-!
# Cases generated from a model

The `generate-tests` endpoint of `interfaces/api/routers/appmodels.py`: the strategies derive logic
tests from a signed model, each test is wrapped as a case under an id that is cut from its signature,
and each case is written as a draft and fast-tracked. The strategy of
`logic_strategies/restler_strategy.py` is given here; the others are arguments.

## Main definitions

* `AppModel`, `LogicTestCase`: what is read, and what a strategy derives
* `restlerStrategy`: replayed, skipped and reordered transitions
* `logicToCase`: the case of a test
* `generateTests`: the endpoint

## Main results

* `enforcePublish_logicToCase`: the case of a test passes the gate
* `advanceAll_apply`: every generated case is written as a validated one, whatever is under its id
* `generateTests_eq_ok`: when the endpoint returns, and what it writes
-/

namespace SecOpent

open Python

/-! ## Models -/

/-- `AppModelStatus`. -/
inductive AppModelStatus
  | draft | llmProposed | humanValidated | signed | published | superseded
  deriving DecidableEq, Repr

/-- `AppModelStatus.value`. -/
def AppModelStatus.value : AppModelStatus → String
  | .draft => "draft"
  | .llmProposed => "llm_proposed"
  | .humanValidated => "human_validated"
  | .signed => "signed"
  | .published => "published"
  | .superseded => "superseded"

/-- `Transition`. -/
structure AppModel.Transition where
  id : String
  fromState : String
  toState : String
  endpoint : String
  idempotent : Bool := false
  id_ne : id ≠ ""
  fromState_ne : fromState ≠ ""
  toState_ne : toState ≠ ""
  endpoint_ne : endpoint ≠ ""

/-- `Invariant`. -/
structure AppModel.Invariant where
  id : String
  expr : String
  id_ne : id ≠ ""
  expr_ne : expr ≠ ""

/-- `Field`. -/
structure AppModel.Field where
  name : String
  type : String
  range : Option (Json × Json) := none
  name_ne : name ≠ ""
  type_ne : type ≠ ""

/-- `AppModel`, with what the strategies read. -/
structure AppModel where
  appId : String
  version : String
  transitions : List AppModel.Transition := []
  invariants : List AppModel.Invariant := []
  fields : List AppModel.Field := []
  status : AppModelStatus := .draft
  digest : String
  appId_ne : appId ≠ ""
  version_ne : version ≠ ""
  digest_ne : digest ≠ ""

/-! ## Tests -/

/-- `LogicTestClass`. -/
inductive LogicTestClass
  | skipStep | outOfOrder | replay | boundary | invariantViolation
  deriving DecidableEq, Repr

/-- `LogicTestClass.value`. -/
def LogicTestClass.value : LogicTestClass → String
  | .skipStep => "skip_step"
  | .outOfOrder => "out_of_order"
  | .replay => "replay"
  | .boundary => "boundary"
  | .invariantViolation => "invariant_violation"

/-- `LogicTestCase`. -/
structure LogicTestCase where
  testClass : LogicTestClass
  appModelDigest : String
  target : String
  description : String
  inputs : List (String × Json) := []
  signature : String := ""
  appModelDigest_ne : appModelDigest ≠ ""
  target_ne : target ≠ ""

/-- `compute_signature`. -/
def computeSignature (H : Sha256) (appModelDigest : String) (testClass : LogicTestClass)
    (strategyVersion target : String) : String :=
  String.ofList (sha256Tag ++ H.hexdigest
    ("|".intercalate [appModelDigest, testClass.value, strategyVersion, target]).toList)

/-- A `LogicGenerationStrategy`. -/
structure LogicGenerationStrategy where
  strategyVersion : String
  generate : AppModel → Except String (List LogicTestCase)

/-- `LogicTestGenerator.generate`. -/
def generateAll (strategies : List LogicGenerationStrategy) (model : AppModel) :
    Except String (List LogicTestCase) :=
  (strategies.mapM (LogicGenerationStrategy.generate · model)).map List.flatten

/-! ## Sequences of transitions -/

section Restler

variable (H : Sha256) (model : AppModel)

/-- `_case`, with the version `1.0.0` of the strategy. -/
def restlerCase (testClass : LogicTestClass) (target : String) (target_ne : target ≠ "")
    (description : String) (inputs : List (String × Json)) : LogicTestCase where
  testClass := testClass
  appModelDigest := model.digest
  target := target
  description := description
  inputs := inputs
  signature := computeSignature H model.digest testClass "1.0.0" target
  appModelDigest_ne := model.digest_ne
  target_ne := target_ne

/-- `_replay`. -/
def replayTests : List LogicTestCase :=
  (model.transitions.filter fun t => !t.idempotent).map fun t =>
    restlerCase H model .replay t.id t.id_ne
      ("replay non-idempotent transition " ++ t.endpoint ++ " twice")
      [("repeat_endpoint", .text t.endpoint), ("times", .int 2)]

/-- `_adjacent_pairs`. -/
def adjacentPairs : List (AppModel.Transition × AppModel.Transition) :=
  model.transitions.flatMap fun t =>
    (model.transitions.filter fun t' => t.id ≠ t'.id && t.toState == t'.fromState).map fun t' =>
      (t, t')

/-- `_skip_step`. -/
def skipTests : List LogicTestCase :=
  (adjacentPairs model).map fun (t, t') =>
    restlerCase H model .skipStep (t.id ++ ("->" ++ t'.id)) (append_ne_empty _ t.id_ne)
      ("skip " ++ t.endpoint ++ ": call " ++ t'.endpoint ++ " directly")
      [("call", .text t'.endpoint), ("skip", .text t.endpoint)]

/-- `_out_of_order`. -/
def outOfOrderTests : List LogicTestCase :=
  (adjacentPairs model).map fun (t, t') =>
    restlerCase H model .outOfOrder (t'.id ++ ("->" ++ t.id)) (append_ne_empty _ t'.id_ne)
      ("call " ++ t'.endpoint ++ " before prerequisite " ++ t.endpoint)
      [("order", .list [.text t'.endpoint, .text t.endpoint])]

/-- `RestlerStrategy`. -/
def restlerStrategy : LogicGenerationStrategy where
  strategyVersion := "1.0.0"
  generate model := .ok (replayTests H model ++ skipTests H model ++ outOfOrderTests H model)

end Restler

/-! ## The case of a test -/

/-- The id of the case of a test. -/
def logicCaseId (test : LogicTestCase) : String :=
  "logic:" ++ (test.testClass.value ++ ":" ++
    String.ofList ((removePrefix test.signature.toList sha256Tag).take 12))

/-- The one step of the case of a test. -/
def logicStep (test : LogicTestCase) : CaseStep where
  id := "t1"
  action := "logic.test"
  spec := .ofItems
    [("test_class", .text test.testClass.value), ("target", .text test.target),
      ("inputs", .object (Dict.ofItems test.inputs).items), ("signature", .text test.signature),
      ("app_model_digest", .text test.appModelDigest)]
  id_ne := by decide
  action_ne := by decide

/-- `_logic_to_case`. -/
def logicToCase (model : AppModel) (test : LogicTestCase) : CaseDefinition where
  id := logicCaseId test
  version := model.version
  author := "logic-generator"
  risk := .active
  targetType := "logic"
  schema := "secopent-logic/v1"
  steps := [logicStep test]
  origin := .modelGenerated
  id_ne := append_ne_empty _ (by decide)
  version_ne := model.version_ne
  author_ne := by decide
  targetType_ne := by decide
  schema_ne := by decide
  steps_ne := by simp

/-- A generated case, once it is advanced. -/
def generatedCase (model : AppModel) (test : LogicTestCase) : CaseDefinition :=
  (logicToCase model test).moved .validated

/-! ## The endpoint -/

namespace CaseService

variable (service : CaseService) (strategies : List LogicGenerationStrategy)

/-- The tests are written as drafts and advanced, one after the other. -/
def advanceAll (model : AppModel) : List LogicTestCase → Call CaseRegistry (List CaseDefinition)
  | [] => pure []
  | test :: tests => do
    let case := logicToCase model test
    let _ ← createDraft case
    let advanced ← service.fastTrackModelGenerated case.id
    let later ← advanceAll model tests
    pure (advanced :: later)

/-- `generate_tests`, where `stored` is the model that is read. -/
def generateTests (appId version : String) (stored : Option AppModel) :
    Call CaseRegistry (List CaseDefinition) := .transaction <|
  match stored with
  | none => .raise ("app model not found: " ++ appId ++ "@" ++ version)
  | some model =>
    if model.status ≠ .signed then
      .raise ("model must be SIGNED to generate tests (is " ++ model.status.value ++ ")")
    else do
      let tests ← .ofExcept id (generateAll strategies model)
      service.advanceAll model tests

end CaseService

/-! ## What the endpoint writes -/

section Writes

open CaseService

variable {service : CaseService} {strategies : List LogicGenerationStrategy} {model : AppModel}
  {test : LogicTestCase} {tests : List LogicTestCase} {registry after : CaseRegistry}

theorem logicStep_get? {key : String}
    (h : key ∉ ["test_class", "target", "inputs", "signature", "app_model_digest"]) :
    (logicStep test).spec.get? key = none := by
  simp only [List.mem_cons, List.not_mem_nil, or_false, not_or] at h
  obtain ⟨hclass, htarget, hinputs, hsignature, hdigest⟩ := h
  simp [logicStep, Dict.ofItems, hclass, htarget, hinputs, hsignature, hdigest]

theorem logicStep_gives {key : String}
    (h : key ∉ ["test_class", "target", "inputs", "signature", "app_model_digest"]) :
    (logicStep test).gives key = false := by
  rw [CaseStep.gives, logicStep_get? h]
  rfl

theorem logicStep_sets {key : String}
    (h : key ∉ ["test_class", "target", "inputs", "signature", "app_model_digest"]) :
    (logicStep test).sets key = false := by
  rw [CaseStep.sets, logicStep_get? h]

theorem stepRisk_logicStep (U : Unicode) (upperTable : Str → Str) :
    stepRisk U upperTable (logicStep test) = some .low := by
  have haction : lower U (logicStep test).action.toList = "logic.test".toList := by
    change lower U "logic.test".toList = _
    rw [lower, if_pos (by decide)]
    decide
  have hverb : verbOf U (logicStep test).action = "test".toList := by
    change verbOf U "logic.test" = _
    rw [verbOf, lower, if_pos (by decide)]
    decide
  have hdenied : (logicStep test).denied U = false := by
    rw [CaseStep.denied, haction, hverb, logicStep_sets (by decide), logicStep_gives (by decide),
      logicStep_sets (by decide)]
    rfl
  have hwrites : (logicStep test).writes upperTable = false := by
    rw [CaseStep.writes, logicStep_get? (by decide)]
  have hmarkers : intrusiveMarkers.any (logicStep test).gives = false := by
    rw [List.any_eq_false]
    intro marker hmarker
    rw [logicStep_gives (by revert hmarker; revert marker; decide)]
    simp
  rw [stepRisk, hdenied, haction, hverb, logicStep_gives (by decide), hmarkers,
    logicStep_gives (by decide), hwrites]
  rfl

theorem enforcePublish_logicToCase : service.enforcePublish (logicToCase model test) = .ok () := by
  refine validateDeclaredRisk_eq_ok_iff.mpr fun step hstep => ?_
  obtain rfl := List.mem_singleton.mp hstep
  have hrank : RiskClass.low.rank ≤ RiskClass.active.rank := by decide
  exact ⟨.low, stepRisk_logicStep _ _, hrank⟩

/-- Every generated case is written as a validated one, whatever is under its id. -/
theorem advanceAll_apply :
    service.advanceAll model tests registry =
      (.ok (tests.map (generatedCase model)), registry.putAll (tests.map (generatedCase model))) := by
  induction tests generalizing registry with
  | nil => rfl
  | cons test tests ih =>
    have hdraft : createDraft (logicToCase model test) registry =
        (.ok (logicToCase model test), registry.put (logicToCase model test)) := rfl
    have htrack : service.fastTrackModelGenerated (logicToCase model test).id
        (registry.put (logicToCase model test)) =
        (.ok (generatedCase model test), registry.put (generatedCase model test)) := by
      have hrisk : (logicToCase model test).risk ∉ [RiskClass.passive, .low] := by
        simp [logicToCase]
      have htwice : (registry.put (logicToCase model test)).put (generatedCase model test) =
          registry.put (generatedCase model test) := registry.put_put rfl
      rw [fastTrack_eq_ok]
      refine ⟨logicToCase model test, by simp, rfl, enforcePublish_logicToCase, rfl, ?_, htwice.symm⟩
      rw [CaseDefinition.trackedStatus, if_neg hrisk]
      rfl
    rw [advanceAll, Call.bind_of_ok hdraft, Call.bind_of_ok htrack, Call.bind_of_ok ih]
    rfl

/-- The endpoint writes the validated cases of all tests of a signed model. -/
theorem generateTests_eq_ok {appId version : String} {stored : Option AppModel}
    {cases : List CaseDefinition} :
    service.generateTests strategies appId version stored registry = (.ok cases, after) ↔
      ∃ model tests, stored = some model ∧ model.status = .signed ∧
        generateAll strategies model = .ok tests ∧ cases = tests.map (generatedCase model) ∧
        after = registry.putAll cases := by
  unfold generateTests
  rw [Call.transaction_eq_ok]
  cases stored with
  | none => simp
  | some model =>
    simp only [Option.some.injEq]
    split
    next h => simp [h]
    next h =>
      simp only [Call.bind_eq_ok, Call.ofExcept_eq_ok, advanceAll_apply, Prod.mk.injEq,
        Except.ok.injEq]
      constructor
      · rintro ⟨tests, _, ⟨htests, rfl⟩, rfl, rfl⟩
        exact ⟨model, tests, rfl, not_not.mp h, htests, rfl, rfl⟩
      · rintro ⟨_, tests, rfl, -, htests, rfl, rfl⟩
        exact ⟨tests, registry, ⟨htests, rfl⟩, rfl, rfl⟩

end Writes

end SecOpent
