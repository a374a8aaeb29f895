import SecOpent.Assessments.LlmPlanner
import SecOpent.Assessments.PlanGraphs
import SecOpent.Cases.Generation

/-!
# Plans in tiers

`application/planner.py`: a step for each class that the catalog requires for an asset type, and one for
each case of the logic tests. Reconnaissance depends on nothing, active steps on the reconnaissance, and
intrusive steps on both, so the tiers of the risks descend along the dependencies.

## Main definitions

* `Planner.generate`: the plan
* `riskTier`: the tier of a risk
* `Subject`, `IsStepOf`: what a plan has to test, and the step that does

## Main results

* `key_injective`: different subjects have different keys
* `steps_dependencies`: dependencies are steps of a lower tier
* `planner_plan_accepted`: the plan is created, and is exactly what the catalog and the cases ask for
-/

namespace SecOpent

open Python

/-- `Planner`. -/
structure Planner where
  catalog : TestCatalog
  runnerMap : Dict AssetType String := .empty

/-- An item of `_collect_items`. -/
structure PlanItem where
  key : String
  runner : String
  risk : RiskClass
  parameters : Dict String Str

/-- `risk in (RiskClass.PASSIVE, RiskClass.LOW)`. -/
def isRecon (risk : RiskClass) : Bool := risk ∈ [RiskClass.passive, .low]

/-- `_LOGIC_RISK`. -/
def logicRisk : RiskClass := .active

/-- The first twelve digits of the signature of a case. -/
def LogicTestCase.shortSignature (case : LogicTestCase) : Str :=
  (removePrefix case.signature.toList sha256Tag).take 12

namespace Planner

variable (planner : Planner)

/-- `_runners`: the defaults, updated. -/
def runners : Dict AssetType String :=
  planner.runnerMap.items.foldl (fun runners item => runners.set item.1 item.2) defaultRunners

/-- The key of the step of a required class. -/
def classKey (assetType : AssetType) (cls : RequiredTestClass) : String :=
  assetType.value ++ ":" ++ cls.id

/-- The key of the step of a case. -/
def logicKey (case : LogicTestCase) : String :=
  "logic:" ++ case.testClass.value ++ ":" ++ String.ofList case.shortSignature

/-- The item of a required class. -/
def classItem (assetType : AssetType) (cls : RequiredTestClass) : PlanItem where
  key := classKey assetType cls
  runner := (planner.runners.get? assetType).getD "adapter"
  risk := cls.risk
  parameters :=
    ⟨[("asset_type", assetType.value.toList), ("test_class", cls.id.toList),
      ("cwe", LLMPlanner.tupleText cls.cwe), ("owasp", LLMPlanner.tupleText cls.owasp)],
      (by decide : ["asset_type", "test_class", "cwe", "owasp"].Nodup)⟩

/-- The item of a case. -/
def logicItem (case : LogicTestCase) : PlanItem where
  key := logicKey case
  runner := "case-engine"
  risk := logicRisk
  parameters :=
    ⟨[("test_class", case.testClass.value.toList), ("case_signature", case.signature.toList),
      ("app_model_digest", case.appModelDigest.toList)],
      (by decide : ["test_class", "case_signature", "app_model_digest"].Nodup)⟩

/-- `_collect_items`. -/
def collectItems (assetTypes : List AssetType) (logicCases : List LogicTestCase) : List PlanItem :=
  assetTypes.flatMap (fun assetType =>
      (planner.catalog.requiredFor assetType).map (planner.classItem assetType)) ++
    logicCases.map logicItem

/-- `recon_keys`. -/
def reconKeys (items : List PlanItem) : List String :=
  (items.filter fun item => isRecon item.risk).map PlanItem.key

/-- `active_keys`. -/
def activeKeys (items : List PlanItem) : List String :=
  (items.filter fun item => item.risk = .active).map PlanItem.key

/-- `deps`. -/
def dependencies (items : List PlanItem) (risk : RiskClass) : List String :=
  if isRecon risk then []
  else if risk = .active then reconKeys items
  -- Intrusive and destructive.
  else reconKeys items ++ activeKeys items

/-- The step of an item. -/
def toStep (items : List PlanItem) (item : PlanItem) : PlanStep where
  key := item.key
  runner := item.runner
  risk := item.risk
  parameters := item.parameters
  dependencies := dependencies items item.risk

/-- The steps of a plan. -/
def steps (assetTypes : List AssetType) (logicCases : List LogicTestCase) : List PlanStep :=
  let items := planner.collectItems assetTypes logicCases
  items.map (toStep items)

/-- `generate`, with the digest of the steps given. -/
def generate (planId assessmentId : String) (assetTypes : List AssetType)
    (logicCases : List LogicTestCase) (version : ℤ) (digest : List PlanStep → String) :
    Except ServiceError ExecutionPlan :=
  let steps := planner.steps assetTypes logicCases
  ExecutionPlan.createAt planId assessmentId version steps (digest steps)

end Planner

/-! ## What a plan has to test -/

/-- The tier of a risk: reconnaissance, active steps, and what comes after them. -/
def riskTier : RiskClass → ℕ
  | .passive | .low => 0
  | .active => 1
  | .intrusive | .destructive => 2

/-- What a step is for: a class required for an asset type, or a case of the logic tests. -/
inductive Subject
  | required (assetType : AssetType) (cls : RequiredTestClass)
  | logic (case : LogicTestCase)

/-- The classes that the catalog requires for the asset types, and the cases. -/
def subjects (catalog : TestCatalog) (assetTypes : List AssetType) (logicCases : List LogicTestCase) :
    List Subject :=
  assetTypes.flatMap (fun assetType => (catalog.requiredFor assetType).map (.required assetType)) ++
    logicCases.map .logic

/-- The step tests the subject. -/
def IsStepOf : Subject → PlanStep → Prop
  | .required assetType cls, step =>
    step.risk = cls.risk ∧
      step.parameters.get? "asset_type" = some assetType.value.toList ∧
      step.parameters.get? "test_class" = some cls.id.toList
  | .logic case, step =>
    step.runner = "case-engine" ∧ step.risk = .active ∧
      step.parameters.get? "case_signature" = some case.signature.toList ∧
      step.parameters.get? "test_class" = some case.testClass.value.toList

namespace Planner

variable {planner : Planner} {assetTypes : List AssetType} {logicCases : List LogicTestCase}
  {items : List PlanItem}

/-! ## Keys -/

theorem colon_notMem_assetType (assetType : AssetType) : ':' ∉ assetType.value.toList := by
  cases assetType <;> decide

theorem colon_notMem_testClass (testClass : LogicTestClass) : ':' ∉ testClass.value.toList := by
  cases testClass <;> decide

/-- The parts before and after the first colon. -/
theorem colon_inj {head head' tail tail' : String} (hhead : ':' ∉ head.toList)
    (hhead' : ':' ∉ head'.toList) (h : head ++ ":" ++ tail = head' ++ ":" ++ tail') :
    head = head' ∧ tail = tail' := by
  have hlist : head.toList ++ ':' :: tail.toList = head'.toList ++ ':' :: tail'.toList := by
    simpa using congrArg String.toList h
  have hparts := congrArg (partition ':') hlist
  rw [partition_append ':' hhead, partition_append ':' hhead'] at hparts
  obtain ⟨hfirst, hsecond⟩ := Prod.mk.inj hparts
  exact ⟨String.toList_inj.mp hfirst, String.toList_inj.mp hsecond⟩

theorem classKey_inj {assetType assetType' : AssetType} {cls cls' : RequiredTestClass}
    (h : classKey assetType cls = classKey assetType' cls') :
    assetType = assetType' ∧ cls.id = cls'.id := by
  obtain ⟨hvalue, hid⟩ := colon_inj (colon_notMem_assetType _) (colon_notMem_assetType _) h
  refine ⟨?_, hid⟩
  cases assetType <;> cases assetType' <;> first | rfl | exact absurd hvalue (by decide)

/-- A key of a case has two colons at least. -/
theorem logicKey_eq (case : LogicTestCase) : logicKey case =
    "logic" ++ ":" ++ (case.testClass.value ++ ":" ++ String.ofList case.shortSignature) := by
  simp only [logicKey, String.append_assoc]
  rw [show "logic:" = "logic" ++ ":" from rfl, String.append_assoc]

/-- Cases with one key have one short signature. -/
theorem logicKey_inj {case case' : LogicTestCase} (h : logicKey case = logicKey case') :
    case.shortSignature = case'.shortSignature := by
  rw [logicKey_eq, logicKey_eq] at h
  obtain ⟨-, hrest⟩ := colon_inj (by decide) (by decide) h
  obtain ⟨-, hsignature⟩ := colon_inj (colon_notMem_testClass _) (colon_notMem_testClass _) hrest
  exact String.ofList_inj.mp hsignature

/-- No asset type is called `logic`. -/
theorem classKey_ne_logicKey (assetType : AssetType) (cls : RequiredTestClass)
    (case : LogicTestCase) : classKey assetType cls ≠ logicKey case := by
  intro h
  rw [classKey, logicKey_eq] at h
  obtain ⟨hvalue, -⟩ := colon_inj (colon_notMem_assetType _) (by decide) h
  cases assetType <;> exact absurd hvalue (by decide)

/-- **Different subjects have different keys.** -/
theorem keys_nodup_of_distinct
    (hcatalog : ∀ assetType, ((planner.catalog.requiredFor assetType).map (·.id)).Nodup)
    (hassets : assetTypes.Nodup) (hcases : (logicCases.map (·.shortSignature)).Nodup) :
    ((planner.collectItems assetTypes logicCases).map PlanItem.key).Nodup := by
  rw [collectItems, List.map_append, List.nodup_append, List.map_flatMap]
  refine ⟨List.nodup_flatMap.mpr ⟨?_, ?_⟩, ?_, ?_⟩
  · intro assetType _
    rw [List.map_map]
    refine List.pairwise_map.mpr ((List.pairwise_map.mp (hcatalog assetType)).imp ?_)
    exact fun hne hkey => hne (classKey_inj hkey).2
  · refine hassets.imp fun hne => ?_
    intro key hkey hkey'
    simp only [List.map_map, List.mem_map] at hkey hkey'
    obtain ⟨cls, -, rfl⟩ := hkey
    obtain ⟨cls', -, hkey'⟩ := hkey'
    exact hne (classKey_inj hkey').1.symm
  · rw [List.map_map]
    refine List.pairwise_map.mpr ((List.pairwise_map.mp hcases).imp ?_)
    exact fun hne hkey => hne (logicKey_inj hkey)
  · intro key hkey key' hkey' heq
    simp only [List.mem_flatMap, List.map_map, List.mem_map] at hkey hkey'
    obtain ⟨assetType, -, cls, -, rfl⟩ := hkey
    obtain ⟨case, -, rfl⟩ := hkey'
    exact classKey_ne_logicKey _ _ _ heq

/-! ## Dependencies -/

theorem mem_reconKeys {key : String} :
    key ∈ reconKeys items ↔ ∃ item ∈ items, riskTier item.risk = 0 ∧ item.key = key := by
  have htier : ∀ risk, isRecon risk = true ↔ riskTier risk = 0 := by
    intro risk
    cases risk <;> decide
  simp only [reconKeys, List.mem_map, List.mem_filter, htier, and_assoc]

theorem mem_activeKeys {key : String} :
    key ∈ activeKeys items ↔ ∃ item ∈ items, riskTier item.risk = 1 ∧ item.key = key := by
  have htier : ∀ risk : RiskClass, decide (risk = .active) = true ↔ riskTier risk = 1 := by
    intro risk
    cases risk <;> decide
  simp only [activeKeys, List.mem_map, List.mem_filter, htier, and_assoc]

/-- **The dependencies at a risk are the items of lower tiers.** -/
theorem mem_dependencies {key : String} {risk : RiskClass} :
    key ∈ dependencies items risk ↔
      ∃ item ∈ items, riskTier item.risk < riskTier risk ∧ item.key = key := by
  cases hrisk : riskTier risk with
  | zero =>
    have hrecon : isRecon risk = true := by revert hrisk; cases risk <;> decide
    simp [dependencies, hrecon]
  | succ tier =>
    have hrecon : isRecon risk = false := by revert hrisk; cases risk <;> simp [riskTier, isRecon]
    by_cases hactive : risk = .active
    · subst hactive
      obtain rfl : tier = 0 := by simpa [riskTier] using hrisk.symm
      simp only [dependencies, hrecon, Bool.false_eq_true, if_false, if_true, mem_reconKeys,
        Nat.lt_one_iff, zero_add]
    · obtain rfl : tier = 1 := by revert hrisk hactive; cases risk <;> simp_all [riskTier, isRecon]
      rw [dependencies, hrecon, if_neg Bool.false_ne_true, if_neg hactive, List.mem_append,
        mem_reconKeys, mem_activeKeys]
      constructor
      · rintro (⟨item, hitem, htier, hkey⟩ | ⟨item, hitem, htier, hkey⟩)
        · exact ⟨item, hitem, by omega, hkey⟩
        · exact ⟨item, hitem, by omega, hkey⟩
      · rintro ⟨item, hitem, htier, hkey⟩
        rcases Nat.lt_succ_iff_lt_or_eq.mp htier with htier | htier
        · exact .inl ⟨item, hitem, by omega, hkey⟩
        · exact .inr ⟨item, hitem, htier, hkey⟩

/-- The item of a subject. -/
def itemOf (planner : Planner) : Subject → PlanItem
  | .required assetType cls => planner.classItem assetType cls
  | .logic case => logicItem case

theorem collectItems_eq : planner.collectItems assetTypes logicCases =
    (subjects planner.catalog assetTypes logicCases).map planner.itemOf := by
  simp only [collectItems, subjects, List.map_append, List.map_flatMap, List.map_map]
  rfl

/-- The step of an item tests its subject. -/
theorem isStepOf_toStep (items : List PlanItem) (subject : Subject) :
    IsStepOf subject (toStep items (planner.itemOf subject)) := by
  cases subject with
  | required assetType cls => exact ⟨rfl, rfl, rfl⟩
  | logic case => exact ⟨rfl, rfl, rfl, rfl⟩

/-- The dependencies of a step are steps of lower tiers. -/
theorem steps_dependencies {step : PlanStep} (hstep : step ∈ planner.steps assetTypes logicCases) :
    ∀ d ∈ step.dependencies, ∃ target ∈ planner.steps assetTypes logicCases,
      target.key = d ∧ riskTier target.risk < riskTier step.risk := by
  intro d hd
  obtain ⟨item, hitem, rfl⟩ := List.mem_map.mp hstep
  obtain ⟨target, htarget, htier, rfl⟩ := mem_dependencies.mp hd
  exact ⟨_, List.mem_map_of_mem htarget, rfl, htier⟩

end Planner

/-- **The plan is accepted, and it is exactly what is asked for**: the steps are those of the required
classes of each asset type and of the cases, one for each; no two have one key; and what a step depends
on are steps of a strictly lower tier. -/
theorem planner_plan_accepted (planner : Planner) (planId assessmentId : String)
    (assetTypes : List AssetType) (logicCases : List LogicTestCase) (version : ℤ)
    (digest : List PlanStep → String) (hversion : 1 ≤ version)
    (hcatalog : ∀ assetType, ((planner.catalog.requiredFor assetType).map (·.id)).Nodup)
    (hassets : assetTypes.Nodup) (hcases : (logicCases.map (·.shortSignature)).Nodup) :
    ∃ plan, planner.generate planId assessmentId assetTypes logicCases version digest = .ok plan ∧
      List.Forall₂ IsStepOf (subjects planner.catalog assetTypes logicCases) plan.steps ∧
      (plan.steps.map PlanStep.key).Nodup ∧
      ∀ step ∈ plan.steps, ∀ d ∈ step.dependencies,
        ∃ target ∈ plan.steps, target.key = d ∧ riskTier target.risk < riskTier step.risk := by
  have hkeys : ((planner.steps assetTypes logicCases).map PlanStep.key).Nodup := by
    have hitems := Planner.keys_nodup_of_distinct hcatalog hassets hcases
    rwa [Planner.steps, List.map_map]
  have hdependencies : ∀ step ∈ planner.steps assetTypes logicCases, ∀ d ∈ step.dependencies,
      ∃ target ∈ planner.steps assetTypes logicCases,
        target.key = d ∧ riskTier target.risk < riskTier step.risk :=
    fun step hstep => Planner.steps_dependencies hstep
  refine ⟨⟨planId, assessmentId, version.toNat, planner.steps assetTypes logicCases,
    digest (planner.steps assetTypes logicCases)⟩, ?_, ?_, hkeys, hdependencies⟩
  · rw [Planner.generate, ExecutionPlan.createAt, if_neg (by omega)]
    exact create_of_rank (by omega) (fun step => riskTier step.risk) hkeys hdependencies
  · show List.Forall₂ _ _ (List.map _ _)
    rw [Planner.collectItems_eq, List.map_map, List.forall₂_map_right_iff]
    exact List.forall₂_same.mpr fun subject _ => Planner.isStepOf_toStep _ subject

/-- Two asset types with a class in common, an intrusive class, and a case. -/
theorem overlapping_assets_planned :
    ∃ plan, (Planner.mk ⟨⟨[(.webApp, [⟨"sqli", ["CWE-89"], [], .active, by decide⟩,
        ⟨"crawl", [], [], .passive, by decide⟩]),
        (.api, [⟨"sqli", ["CWE-89"], [], .intrusive, by decide⟩])], by decide⟩⟩ .empty).generate
      "plan-1" "as-1" [.webApp, .api]
      [⟨.replay, "sha256:model", "checkout", "", [], "sha256:00112233445566", by decide, by decide⟩]
      1 (fun _ => "sha256:plan") = .ok plan ∧ plan.steps.length = 4 := by
  obtain ⟨plan, hplan, hsteps, -⟩ := planner_plan_accepted
    (Planner.mk ⟨⟨[(.webApp, [⟨"sqli", ["CWE-89"], [], .active, by decide⟩,
        ⟨"crawl", [], [], .passive, by decide⟩]),
        (.api, [⟨"sqli", ["CWE-89"], [], .intrusive, by decide⟩])], by decide⟩⟩ .empty)
    "plan-1" "as-1" [.webApp, .api]
    [⟨.replay, "sha256:model", "checkout", "", [], "sha256:00112233445566", by decide, by decide⟩]
    1 (fun _ => "sha256:plan") (by decide) (by intro assetType; cases assetType <;> decide)
    (by decide) (by decide)
  exact ⟨plan, hplan, hsteps.length_eq.symm⟩

end SecOpent
