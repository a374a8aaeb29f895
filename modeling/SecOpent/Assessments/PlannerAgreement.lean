import Mathlib.Data.List.Permutation
import SecOpent.Assessments.Planner

/-!
# The planner without a model against the deterministic one

`LLMPlanner` without a backend is to be the deterministic `Planner`. Both take the required classes of
the asset types, but they were written apart: the one strips the name of the asset type from the id of a
class before it puts it in front, takes a class once that is listed twice, and plans no dependencies at
all.

## Main definitions

* `PlanStep.face`, `SamePlan`: the steps of two plans, up to order, and what depends on what
* `PlansAgree`: two planners build the same plan, or neither builds one
* `PlannedAlike`, `RefusedAlike`: when they do

## Main results

* `floor_keys_nodup_iff`, `deterministic_keys_nodup_iff`: the catalogs that each of them plans for
* `degraded_plan_agrees_iff`: when the two agree
-/

namespace SecOpent

open Python

/-! ## Comparing plans -/

/-- Key, runner, risk and test class of a step. -/
def PlanStep.face (step : PlanStep) : String × String × RiskClass × Option Str :=
  (step.key, step.runner, step.risk, step.parameters.get? "test_class")

/-- The plans have the same steps, in any order, and the same dependencies. -/
structure SamePlan (plan plan' : ExecutionPlan) : Prop where
  faces : (plan.steps.map PlanStep.face).Perm (plan'.steps.map PlanStep.face)
  dependencies : ∀ key target,
    DirectlyDependsOn plan.steps key target ↔ DirectlyDependsOn plan'.steps key target

/-- Two planners build the same plan, or neither builds one. -/
def PlansAgree : Except ServiceError ExecutionPlan → Except ServiceError ExecutionPlan → Prop
  | .ok plan, .ok plan' => SamePlan plan plan'
  | .error _, .error _ => True
  | _, _ => False

/-- `Planner`, on the catalog and the runners of the other planner. -/
def LLMPlanner.deterministic (planner : LLMPlanner) : Planner := ⟨planner.catalog, planner.runnerMap⟩

/-- The id of a class without the name of the asset type in front. -/
def bareId (assetType : AssetType) (cls : RequiredTestClass) : Str :=
  removePrefix cls.id.toList (assetType.value ++ ":").toList

/-- The required classes of each asset type have ids of their own, without its name in front, and all
of them are in one tier. -/
structure PlannedAlike (catalog : TestCatalog) (assetTypes : List AssetType) : Prop where
  distinct : ∀ assetType ∈ assetTypes, ((catalog.requiredFor assetType).map (·.id)).Nodup
  unprefixed : ∀ assetType ∈ assetTypes, ∀ cls ∈ catalog.requiredFor assetType,
    startsWith cls.id.toList (assetType.value ++ ":").toList = false
  oneTier : ∀ assetType ∈ assetTypes, ∀ cls ∈ catalog.requiredFor assetType,
    ∀ assetType' ∈ assetTypes, ∀ cls' ∈ catalog.requiredFor assetType',
      riskTier cls.risk = riskTier cls'.risk

/-- Two required classes of an asset type differ, but not in their ids without its name. -/
def Clash (catalog : TestCatalog) (assetTypes : List AssetType) : Prop :=
  ∃ assetType ∈ assetTypes, ∃ cls ∈ catalog.requiredFor assetType,
    ∃ cls' ∈ catalog.requiredFor assetType, cls ≠ cls' ∧ bareId assetType cls = bareId assetType cls'

/-- An asset type lists an id twice, and two classes of an asset type clash. -/
structure RefusedAlike (catalog : TestCatalog) (assetTypes : List AssetType) : Prop where
  repeated : ∃ assetType ∈ assetTypes, ¬((catalog.requiredFor assetType).map (·.id)).Nodup
  clash : Clash catalog assetTypes

section Spec

variable {planner : LLMPlanner} {intent : String} {assetTypes : List AssetType}
  {assetType : AssetType} {cls : RequiredTestClass}

/-! ## The steps without a model -/

/-- The classes that are planned for an asset type. -/
def floorOf (planner : LLMPlanner) (assetTypes : List AssetType) (assetType : AssetType) :
    List RequiredTestClass :=
  sortedById ((capped (planner.floorClasses assetTypes) none).filter
    fun cls => cls ∈ planner.catalog.requiredFor assetType)

theorem floorSteps_eq : planner.floorSteps intent none assetTypes =
    assetTypes.flatMap fun assetType =>
      (floorOf planner assetTypes assetType).map (planner.toStep intent assetType) := rfl

theorem nodup_floorOf : (floorOf planner assetTypes assetType).Nodup := by
  have hfloor : (planner.floorClasses assetTypes).Nodup := List.nodup_dedup _
  exact (List.mergeSort_perm _ _).nodup_iff.mpr ((hfloor.filter _).filter _)

/-- They are the required classes. -/
theorem mem_floorOf (h : assetType ∈ assetTypes) :
    cls ∈ floorOf planner assetTypes assetType ↔ cls ∈ planner.catalog.requiredFor assetType := by
  rw [floorOf, LLMPlanner.mem_sortedById, List.mem_filter, LLMPlanner.mem_capped,
    LLMPlanner.floorClasses, List.mem_dedup, List.mem_flatMap]
  simp only [decide_eq_true_eq]
  exact ⟨fun hmem => hmem.2, fun hmem => ⟨⟨⟨assetType, h, hmem⟩, rfl⟩, hmem⟩⟩

theorem floorOf_perm (h : assetType ∈ assetTypes)
    (hdistinct : (planner.catalog.requiredFor assetType).Nodup) :
    (floorOf planner assetTypes assetType).Perm (planner.catalog.requiredFor assetType) :=
  (List.perm_ext_iff_of_nodup nodup_floorOf hdistinct).mpr fun _ => mem_floorOf h

/-! ## Keys -/

/-- The key of a step of the planner without a model. -/
theorem key_toStep : (planner.toStep intent assetType cls).key =
    assetType.value ++ ":" ++ String.ofList (bareId assetType cls) := rfl

/-- A key tells the asset type, and the id without its name. -/
theorem key_toStep_inj {assetType' : AssetType} {cls' : RequiredTestClass}
    (h : (planner.toStep intent assetType cls).key = (planner.toStep intent assetType' cls').key) :
    assetType = assetType' ∧ bareId assetType cls = bareId assetType' cls' := by
  rw [key_toStep, key_toStep] at h
  obtain ⟨hvalue, hid⟩ :=
    Planner.colon_inj (Planner.colon_notMem_assetType _) (Planner.colon_notMem_assetType _) h
  refine ⟨?_, String.ofList_inj.mp hid⟩
  cases assetType <;> cases assetType' <;> first | rfl | exact absurd hvalue (by decide)

/-- The steps of different asset types have different keys, so the keys of a plan are unique exactly if
those of each asset type are. -/
theorem flatMap_keys_nodup_iff {α : Type} {classes : AssetType → List α} (key : AssetType → α → String)
    (hassets : assetTypes.Nodup)
    (hkey : ∀ a a' x x', key a x = key a' x' → a = a') :
    (assetTypes.flatMap fun a => (classes a).map (key a)).Nodup ↔
      ∀ a ∈ assetTypes, ((classes a).map (key a)).Nodup := by
  rw [List.nodup_flatMap]
  refine ⟨And.left, fun h => ⟨h, hassets.imp fun hne => ?_⟩⟩
  intro text htext htext'
  obtain ⟨x, -, rfl⟩ := List.mem_map.mp htext
  obtain ⟨x', -, heq⟩ := List.mem_map.mp htext'
  exact hne (hkey _ _ _ _ heq).symm

/-- **The planner without a model plans** exactly if no required classes clash. -/
theorem floor_keys_nodup_iff (hassets : assetTypes.Nodup) :
    ((planner.floorSteps intent none assetTypes).map PlanStep.key).Nodup ↔
      ¬Clash planner.catalog assetTypes := by
  rw [floorSteps_eq, List.map_flatMap]
  simp only [List.map_map]
  rw [flatMap_keys_nodup_iff (fun a => PlanStep.key ∘ planner.toStep intent a) hassets
    fun _ _ _ _ h => (key_toStep_inj h).1]
  constructor
  · rintro h ⟨assetType, hassetType, cls, hcls, cls', hcls', hne, hbare⟩
    refine hne (List.inj_on_of_nodup_map (h assetType hassetType) ((mem_floorOf hassetType).mpr hcls)
      ((mem_floorOf hassetType).mpr hcls') ?_)
    simp only [Function.comp_apply, key_toStep, hbare]
  · intro h assetType hassetType
    rw [List.nodup_map_iff_inj_on nodup_floorOf]
    intro cls hcls cls' hcls' heq
    by_contra hne
    exact h ⟨assetType, hassetType, cls, (mem_floorOf hassetType).mp hcls, cls',
      (mem_floorOf hassetType).mp hcls', hne, (key_toStep_inj heq).2⟩

theorem deterministic_steps_eq (planner : Planner) (assetTypes : List AssetType) :
    planner.steps assetTypes [] = (assetTypes.flatMap fun assetType =>
      (planner.catalog.requiredFor assetType).map fun cls =>
        Planner.toStep (planner.collectItems assetTypes []) (planner.classItem assetType cls)) := by
  rw [Planner.steps]
  simp only [Planner.collectItems, List.map_nil, List.append_nil, List.map_flatMap, List.map_map]
  rfl

/-- **The deterministic planner plans** exactly if no asset type lists an id twice. -/
theorem deterministic_keys_nodup_iff {planner : Planner} (hassets : assetTypes.Nodup) :
    ((planner.steps assetTypes []).map PlanStep.key).Nodup ↔
      ∀ assetType ∈ assetTypes, ((planner.catalog.requiredFor assetType).map (·.id)).Nodup := by
  rw [deterministic_steps_eq, List.map_flatMap]
  simp only [List.map_map]
  have hkey : ∀ assetType, (PlanStep.key ∘ fun cls => Planner.toStep
      (planner.collectItems assetTypes []) (planner.classItem assetType cls)) =
        Planner.classKey assetType := fun _ => rfl
  simp only [hkey]
  rw [flatMap_keys_nodup_iff Planner.classKey hassets fun _ _ _ _ h => (Planner.classKey_inj h).1]
  refine forall₂_congr fun assetType _ => ?_
  -- Keys with one asset type in front are equal exactly if the ids are.
  have hinj : Function.Injective fun id : String => assetType.value ++ ":" ++ id := by
    intro id id' heq
    exact (Planner.colon_inj (Planner.colon_notMem_assetType _) (Planner.colon_notMem_assetType _)
      heq).2
  have hcomp : (planner.catalog.requiredFor assetType).map (Planner.classKey assetType) =
      ((planner.catalog.requiredFor assetType).map (·.id)).map
        fun id : String => assetType.value ++ ":" ++ id := by
    rw [List.map_map]
    rfl
  rw [hcomp, List.nodup_map_iff hinj]

/-! ## Faces and dependencies -/

/-- An id without the name in front is the id, exactly if the name is not there. -/
theorem bareId_eq_iff :
    bareId assetType cls = cls.id.toList ↔
      startsWith cls.id.toList (assetType.value ++ ":").toList = false := by
  unfold bareId removePrefix
  split
  next hstarts =>
    -- Dropping the name makes the id shorter.
    refine iff_of_false (fun heq => ?_) (by rw [hstarts]; decide)
    obtain ⟨rest, hrest⟩ := List.isPrefixOf_iff_prefix.mp hstarts
    have hlength := congrArg List.length heq
    simp only [← hrest, List.length_drop, List.length_append, String.toList_append] at hlength
    simp only [show ":".toList.length = 1 from rfl] at hlength
    omega
  next hstarts => simpa using hstarts

/-- The face of a step of the planner without a model. -/
theorem face_toStep : (planner.toStep intent assetType cls).face =
    (assetType.value ++ ":" ++ String.ofList (bareId assetType cls),
      (planner.runners.get? assetType).getD "adapter", cls.risk, some cls.id.toList) := rfl

/-- The face of a step of the deterministic planner. -/
theorem face_classItem (planner : Planner) (items : List PlanItem) :
    (Planner.toStep items (planner.classItem assetType cls)).face =
      (assetType.value ++ ":" ++ cls.id, (planner.runners.get? assetType).getD "adapter", cls.risk,
        some cls.id.toList) := rfl

/-- **The steps are the same** exactly if no id has the name of its asset type in front. -/
theorem faces_perm_iff
    (hdistinct : ∀ assetType ∈ assetTypes,
      ((planner.catalog.requiredFor assetType).map (·.id)).Nodup) :
    ((planner.floorSteps intent none assetTypes).map PlanStep.face).Perm
        ((planner.deterministic.steps assetTypes []).map PlanStep.face) ↔
      ∀ assetType ∈ assetTypes, ∀ cls ∈ planner.catalog.requiredFor assetType,
        startsWith cls.id.toList (assetType.value ++ ":").toList = false := by
  rw [deterministic_steps_eq, floorSteps_eq, List.map_flatMap, List.map_flatMap]
  simp only [List.map_map, Function.comp_def, face_toStep, face_classItem]
  constructor
  · intro hperm assetType hassetType cls hcls
    rw [← bareId_eq_iff]
    -- The step that the deterministic planner has for the class.
    have hmem := (hperm.mem_iff (a := (assetType.value ++ ":" ++ cls.id,
      (planner.runners.get? assetType).getD "adapter", cls.risk, some cls.id.toList))).mpr
        (List.mem_flatMap.mpr ⟨assetType, hassetType, List.mem_map.mpr ⟨cls, hcls, rfl⟩⟩)
    obtain ⟨assetType', hassetType', hmem⟩ := List.mem_flatMap.mp hmem
    obtain ⟨cls', hcls', heq⟩ := List.mem_map.mp hmem
    simp only [Prod.mk.injEq, Option.some.injEq] at heq
    obtain ⟨hkey, -, -, hid⟩ := heq
    obtain ⟨hvalue, hbare⟩ :=
      Planner.colon_inj (Planner.colon_notMem_assetType _) (Planner.colon_notMem_assetType _) hkey
    have hbare' : bareId assetType' cls' = cls.id.toList := by
      rw [← hbare, String.toList_ofList]
    rw [← hbare']
    unfold bareId
    rw [hvalue, hid]
  · intro hunprefixed
    refine List.Perm.flatMap_left _ fun assetType hassetType => ?_
    have hperm := floorOf_perm hassetType (List.Nodup.of_map _ (hdistinct assetType hassetType))
    refine (hperm.map _).trans (List.Perm.of_eq (List.map_congr_left fun cls hcls => ?_))
    rw [bareId_eq_iff.mpr (hunprefixed assetType hassetType cls hcls), String.ofList_toList]
    rfl

/-- The planner without a model plans no dependencies. -/
theorem not_dependsOn_floorSteps {key target : String} :
    ¬DirectlyDependsOn (planner.floorSteps intent none assetTypes) key target := by
  rintro ⟨step, hstep, -, htarget⟩
  rw [(LLMPlanner.floorSteps_spec hstep).2] at htarget
  cases htarget

/-- **Nothing depends on anything** exactly if all required classes are in one tier. -/
theorem independent_iff {planner : Planner} :
    (∀ key target, ¬DirectlyDependsOn (planner.steps assetTypes []) key target) ↔
      ∀ assetType ∈ assetTypes, ∀ cls ∈ planner.catalog.requiredFor assetType,
        ∀ assetType' ∈ assetTypes, ∀ cls' ∈ planner.catalog.requiredFor assetType',
          riskTier cls.risk = riskTier cls'.risk := by
  have hitem : ∀ {assetType cls}, assetType ∈ assetTypes →
      cls ∈ planner.catalog.requiredFor assetType →
        planner.classItem assetType cls ∈ planner.collectItems assetTypes [] := by
    intro assetType cls hassetType hcls
    rw [Planner.collectItems, List.map_nil, List.append_nil]
    exact List.mem_flatMap.mpr ⟨assetType, hassetType, List.mem_map_of_mem hcls⟩
  constructor
  · intro h assetType hassetType cls hcls assetType' hassetType' cls' hcls'
    have hle : ∀ {a a' : AssetType} {c c' : RequiredTestClass}, a ∈ assetTypes → a' ∈ assetTypes →
        c ∈ planner.catalog.requiredFor a → c' ∈ planner.catalog.requiredFor a' →
          riskTier c.risk ≤ riskTier c'.risk := by
      intro a a' c c' ha ha' hc hc'
      by_contra hlt
      -- The step of the higher tier depends on that of the lower one.
      refine h (Planner.classKey a c) (Planner.classKey a' c')
        ⟨_, List.mem_map_of_mem (hitem ha hc), rfl, ?_⟩
      exact Planner.mem_dependencies.mpr ⟨_, hitem ha' hc', not_le.mp hlt, rfl⟩
    exact le_antisymm (hle hassetType hassetType' hcls hcls') (hle hassetType' hassetType hcls' hcls)
  · rintro h key target ⟨step, hstep, -, htarget⟩
    obtain ⟨lower, hlower, -, htier⟩ := Planner.steps_dependencies hstep target htarget
    rw [Planner.steps, Planner.collectItems, List.map_nil, List.append_nil] at hstep hlower
    obtain ⟨item, hitem, rfl⟩ := List.mem_map.mp hstep
    obtain ⟨item', hitem', rfl⟩ := List.mem_map.mp hlower
    obtain ⟨assetType, hassetType, hmem⟩ := List.mem_flatMap.mp hitem
    obtain ⟨cls, hcls, rfl⟩ := List.mem_map.mp hmem
    obtain ⟨assetType', hassetType', hmem'⟩ := List.mem_flatMap.mp hitem'
    obtain ⟨cls', hcls', rfl⟩ := List.mem_map.mp hmem'
    exact htier.ne (h assetType' hassetType' cls' hcls' assetType hassetType cls hcls)

/-! ## Outcomes -/

/-- The plan of the planner without a model, or why there is none. -/
theorem generate_none_cases (ε : Type) (planner : LLMPlanner) (intent planId assessmentId : String)
    (assetTypes : List AssetType) (digest : List PlanStep → String) (hassets : assetTypes.Nodup) :
    (¬Clash planner.catalog assetTypes ∧
      planner.generate intent none (none : Option (ModelBackend ε)) planId assessmentId assetTypes
          digest =
        .ok ⟨planId, assessmentId, 1, planner.floorSteps intent none assetTypes,
          digest (planner.floorSteps intent none assetTypes)⟩) ∨
    Clash planner.catalog assetTypes ∧ ∃ error,
      planner.generate intent none (none : Option (ModelBackend ε)) planId assessmentId assetTypes
        digest = .error error := by
  have hgenerate : planner.generate intent none (none : Option (ModelBackend ε)) planId assessmentId
      assetTypes digest = ExecutionPlan.create planId assessmentId 1
        (planner.floorSteps intent none assetTypes)
        (digest (planner.floorSteps intent none assetTypes)) := by
    simp only [LLMPlanner.generate, LLMPlanner.addedSteps, List.append_nil]
  rw [hgenerate]
  have hkeys : ((planner.floorSteps intent none assetTypes).map PlanStep.key).Nodup ↔
      ¬Clash planner.catalog assetTypes := floor_keys_nodup_iff hassets
  by_cases hclash : Clash planner.catalog assetTypes
  · refine .inr ⟨hclash, ?_⟩
    cases hcreate : ExecutionPlan.create planId assessmentId 1
        (planner.floorSteps intent none assetTypes)
        (digest (planner.floorSteps intent none assetTypes)) with
    | error error => exact ⟨error, rfl⟩
    | ok plan =>
      obtain ⟨rfl, hnodup⟩ := ExecutionPlan.create_ok hcreate
      exact absurd hclash (hkeys.mp hnodup)
  · exact .inl ⟨hclash, ExecutionPlan.create_of_independent le_rfl (hkeys.mpr hclash)
      fun step hstep => (LLMPlanner.floorSteps_spec hstep).2⟩

/-- The plan of the deterministic planner, or why there is none. -/
theorem generate_deterministic_cases (planner : Planner) (planId assessmentId : String)
    (assetTypes : List AssetType) (digest : List PlanStep → String) (hassets : assetTypes.Nodup) :
    ((∀ assetType ∈ assetTypes, ((planner.catalog.requiredFor assetType).map (·.id)).Nodup) ∧
      planner.generate planId assessmentId assetTypes [] 1 digest =
        .ok ⟨planId, assessmentId, 1, planner.steps assetTypes [],
          digest (planner.steps assetTypes [])⟩) ∨
    (∃ assetType ∈ assetTypes, ¬((planner.catalog.requiredFor assetType).map (·.id)).Nodup) ∧
      ∃ error, planner.generate planId assessmentId assetTypes [] 1 digest = .error error := by
  have hgenerate : planner.generate planId assessmentId assetTypes [] 1 digest =
      ExecutionPlan.create planId assessmentId 1 (planner.steps assetTypes [])
        (digest (planner.steps assetTypes [])) := by
    rw [Planner.generate, ExecutionPlan.createAt, if_neg (by decide)]
    rfl
  rw [hgenerate]
  have hkeys : ((planner.steps assetTypes []).map PlanStep.key).Nodup ↔
      ∀ assetType ∈ assetTypes, ((planner.catalog.requiredFor assetType).map (·.id)).Nodup :=
    deterministic_keys_nodup_iff hassets
  by_cases hdistinct : ∀ assetType ∈ assetTypes,
      ((planner.catalog.requiredFor assetType).map (·.id)).Nodup
  · refine .inl ⟨hdistinct, create_of_rank le_rfl (fun step => riskTier step.risk)
      (hkeys.mpr hdistinct) ?_⟩
    exact fun step hstep => Planner.steps_dependencies hstep
  · refine .inr ⟨by simpa using hdistinct, ?_⟩
    cases hcreate : ExecutionPlan.create planId assessmentId 1 (planner.steps assetTypes [])
        (digest (planner.steps assetTypes [])) with
    | error error => exact ⟨error, rfl⟩
    | ok plan =>
      obtain ⟨rfl, hnodup⟩ := ExecutionPlan.create_ok hcreate
      exact absurd (hkeys.mp hnodup) hdistinct

end Spec

/-- **Without a model the planner is the deterministic one** exactly if the required classes of each
asset type have ids of their own, without its name in front, and all of them are in one tier; or if
both planners refuse the catalog. -/
theorem degraded_plan_agrees_iff {ε : Type} (planner : LLMPlanner)
    (intent planId assessmentId : String) (assetTypes : List AssetType)
    (digest digest' : List PlanStep → String) (hassets : assetTypes.Nodup) :
    PlansAgree
        (planner.generate intent none (none : Option (ModelBackend ε)) planId assessmentId assetTypes
          digest)
        (planner.deterministic.generate planId assessmentId assetTypes [] 1 digest') ↔
      PlannedAlike planner.catalog assetTypes ∨ RefusedAlike planner.catalog assetTypes := by
  rcases generate_none_cases ε planner intent planId assessmentId assetTypes digest hassets with
    ⟨hclash, hok⟩ | ⟨hclash, error, herror⟩
  · rcases generate_deterministic_cases planner.deterministic planId assessmentId assetTypes digest'
      hassets with ⟨hdistinct, hok'⟩ | ⟨⟨assetType, hassetType, hrepeated⟩, error', herror'⟩
    · -- Both have a plan: the faces and the dependencies decide.
      rw [hok, hok']
      constructor
      · intro h
        have hindependent : ∀ key target, ¬DirectlyDependsOn
            (planner.deterministic.steps assetTypes []) key target := fun key target hdepends =>
          not_dependsOn_floorSteps ((h.dependencies key target).mpr hdepends)
        exact .inl ⟨hdistinct, (faces_perm_iff hdistinct).mp h.faces,
          independent_iff.mp hindependent⟩
      · rintro (h | h)
        · refine ⟨(faces_perm_iff hdistinct).mpr h.unprefixed, fun key target => ?_⟩
          exact iff_of_false not_dependsOn_floorSteps (independent_iff.mpr h.oneTier key target)
        · exact absurd h.clash hclash
    · rw [hok, herror']
      refine iff_of_false id ?_
      rintro (h | h)
      · exact hrepeated (h.distinct assetType hassetType)
      · exact hclash h.clash
  · rcases generate_deterministic_cases planner.deterministic planId assessmentId assetTypes digest'
      hassets with ⟨hdistinct, hok'⟩ | ⟨hrepeated, error', herror'⟩
    · rw [herror, hok']
      refine iff_of_false id ?_
      rintro (h | h)
      · -- Classes with ids of their own, and without the name in front, do not clash.
        obtain ⟨assetType, hassetType, cls, hcls, cls', hcls', hne, hbare⟩ := hclash
        rw [bareId_eq_iff.mpr (h.unprefixed assetType hassetType cls hcls),
          bareId_eq_iff.mpr (h.unprefixed assetType hassetType cls' hcls'),
          String.toList_inj] at hbare
        exact hne (List.inj_on_of_nodup_map (hdistinct assetType hassetType) hcls hcls' hbare)
      · obtain ⟨assetType, hassetType, hrepeated⟩ := h.repeated
        exact hrepeated (hdistinct assetType hassetType)
    · rw [herror, herror']
      exact iff_of_true trivial (.inr ⟨hrepeated, hclash⟩)

/-- A catalog with a passive and an intrusive class. -/
def tieredPlanner : LLMPlanner where
  catalog := ⟨⟨[(.webApp, [⟨"wstg-info", [], [], .passive, by decide⟩,
    ⟨"wstg-smuggling", ["CWE-444"], [], .intrusive, by decide⟩])], by decide⟩⟩
  loads _ := none

/-- The classes are in two tiers, and the planners disagree. -/
theorem tiered_plan_agrees_iff :
    PlansAgree
        (tieredPlanner.generate "" none (none : Option (ModelBackend Unit)) "plan-1" "asm-1" [.webApp]
          (fun _ => ""))
        (tieredPlanner.deterministic.generate "plan-1" "asm-1" [.webApp] [] 1 (fun _ => "")) ↔
      PlannedAlike tieredPlanner.catalog [.webApp] ∨ RefusedAlike tieredPlanner.catalog [.webApp] :=
  degraded_plan_agrees_iff tieredPlanner "" "plan-1" "asm-1" [.webApp] (fun _ => "") (fun _ => "")
    (by decide)

/-- Both planners have a plan. Without a model no step depends on another; the deterministic planner has
the intrusive step wait for the passive one. -/
theorem tiered_plans_disagree :
    (∃ plan plan',
      tieredPlanner.generate "" none (none : Option (ModelBackend Unit)) "plan-1" "asm-1" [.webApp]
          (fun _ => "") = .ok plan ∧
        tieredPlanner.deterministic.generate "plan-1" "asm-1" [.webApp] [] 1 (fun _ => "") =
          .ok plan' ∧
        (∀ step ∈ plan.steps, step.dependencies = []) ∧
        plan'.steps.map PlanStep.dependencies = [[], ["web_app:wstg-info"]]) ∧
      ¬PlansAgree
        (tieredPlanner.generate "" none (none : Option (ModelBackend Unit)) "plan-1" "asm-1" [.webApp]
          (fun _ => ""))
        (tieredPlanner.deterministic.generate "plan-1" "asm-1" [.webApp] [] 1 (fun _ => "")) := by
  have hclash : ¬Clash tieredPlanner.catalog [.webApp] := by
    unfold Clash
    decide +kernel
  obtain ⟨-, hdegraded⟩ | ⟨h, -⟩ := generate_none_cases Unit tieredPlanner "" "plan-1" "asm-1"
    [.webApp] (fun _ => "") (by decide)
  · obtain ⟨-, hplanned⟩ | ⟨h, -⟩ := generate_deterministic_cases tieredPlanner.deterministic "plan-1"
      "asm-1" [.webApp] (fun _ => "") (by decide)
    · have hdependencies : (tieredPlanner.deterministic.steps [.webApp] []).map PlanStep.dependencies =
          [[], ["web_app:wstg-info"]] := by decide +kernel
      refine ⟨⟨_, _, hdegraded, hplanned, fun step hstep => (LLMPlanner.floorSteps_spec hstep).2,
        hdependencies⟩, ?_⟩
      rw [hdegraded, hplanned]
      intro h
      have hdepends : DirectlyDependsOn (tieredPlanner.deterministic.steps [.webApp] [])
          "web_app:wstg-smuggling" "web_app:wstg-info" :=
        ⟨_, List.mem_cons_of_mem _ (List.mem_singleton.mpr rfl), rfl, by decide +kernel⟩
      exact not_dependsOn_floorSteps ((h.dependencies _ _).mpr hdepends)
    · exact absurd h (by decide +kernel)
  · exact absurd h hclash

end SecOpent
