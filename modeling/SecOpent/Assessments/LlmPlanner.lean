import SecOpent.Assessments.Models
import SecOpent.Audit.Events
import SecOpent.Python.Json

/-!
# Plans with a model's choice of test classes

`application/llm_planner.py` with `domain/catalog/models.py`: a plan covers the test classes that the
catalog requires for the asset types of a mission, and a model may choose further classes of the
catalog. What it answers is decoded, looked up in the catalog and held against the risk cap, and an
answer that cannot be read chooses nothing. So the steps without a model are a part of every plan, and
the model has a say in what comes after them only.

## Main definitions

* `AssetType`, `RequiredTestClass`, `TestCatalog`
* `LLMPlanner.generate`: the plan, with a model or without one
* `Extends`: a plan with further steps, within the risk cap

## Main results

* `floorSteps`, `addedSteps`: the two parts of a plan
* `llm_plan_safe`: what a model can do to a plan
-/

namespace SecOpent

open Python

/-! ## The catalog -/

/-- `AssetType`. -/
inductive AssetType
  | webApp | api | ipPort | cloudAccount | containerK8s
  deriving DecidableEq, Repr

namespace AssetType

/-- `AssetType.value`. -/
def value : AssetType → String
  | .webApp => "web_app"
  | .api => "api"
  | .ipPort => "ip_port"
  | .cloudAccount => "cloud_account"
  | .containerK8s => "container_k8s"

/-- The members of `AssetType`. -/
def all : List AssetType := [.webApp, .api, .ipPort, .cloudAccount, .containerK8s]

end AssetType

/-- `RequiredTestClass`. -/
structure RequiredTestClass where
  id : String
  cwe : List String
  owasp : List String
  risk : RiskClass
  id_nonempty : id ≠ ""
  deriving DecidableEq

/-- `TestCatalog`, without its version and digest. -/
structure TestCatalog where
  mappings : Dict AssetType (List RequiredTestClass)

namespace TestCatalog

/-- `required_for`. -/
def requiredFor (catalog : TestCatalog) (assetType : AssetType) : List RequiredTestClass :=
  (catalog.mappings.get? assetType).getD []

/-- The classes of all mappings, in their order. -/
def classes (catalog : TestCatalog) : List RequiredTestClass := catalog.mappings.values.flatten

/-- `known`: of classes with one id the last. -/
def known (catalog : TestCatalog) : Dict String RequiredTestClass :=
  catalog.classes.foldl (fun known cls => known.set cls.id cls) .empty

end TestCatalog

/-! ## Risk caps -/

/-- `_rank`. -/
def riskRank : RiskClass → ℕ
  | .passive => 0
  | .low => 1
  | .active => 2
  | .intrusive => 3
  | .destructive => 4

/-- The risk class is at most the cap. -/
def withinCap (riskCap : Option RiskClass) (risk : RiskClass) : Bool :=
  match riskCap with
  | none => true
  | some cap => riskRank risk ≤ riskRank cap

/-- `_capped`. -/
def capped (classes : List RequiredTestClass) (riskCap : Option RiskClass) : List RequiredTestClass :=
  classes.filter fun cls => withinCap riskCap cls.risk

/-- `sorted(classes, key=lambda c: c.id)`. -/
def sortedById (classes : List RequiredTestClass) : List RequiredTestClass :=
  classes.mergeSort fun a b => a.id ≤ b.id

/-! ## The planner -/

/-- `_DEFAULT_RUNNERS`. -/
def defaultRunners : Dict AssetType String :=
  ⟨[(.webApp, "nuclei"), (.api, "nuclei"), (.ipPort, "nmap"), (.cloudAccount, "prowler"),
    (.containerK8s, "trivy")], by decide⟩

/-- `ModelBackend`: what `complete` answers to a prompt, or raises. -/
abbrev ModelBackend (ε : Type) := String → Except ε String

/-- What a loop over a decoded JSON value sees: the items of a list, the keys of an object, the
characters of a text. Anything else raises. -/
def iterate : Json → Option (List Json)
  | .list items => some items
  | .object fields => some (fields.map fun field => .text field.1)
  | .text text => some (text.toList.map fun c => .text (String.ofList [c]))
  | _ => none

/-- The texts among the items. -/
def Json.text? : Json → Option String
  | .text text => some text
  | _ => none

/-- `LLMPlanner`, without the backend; `loads` is `json.loads`. A set is a list without repetitions. -/
structure LLMPlanner where
  catalog : TestCatalog
  runnerMap : Dict AssetType String := .empty
  loads : String → Option Json

namespace LLMPlanner

variable {ε : Type} (planner : LLMPlanner) (intent : String) (riskCap : Option RiskClass)

/-- `_runners`: the defaults, updated. -/
def runners : Dict AssetType String :=
  planner.runnerMap.items.foldl (fun runners item => runners.set item.1 item.2) defaultRunners

/-- `_floor_classes`. -/
def floorClasses (assetTypes : List AssetType) : List RequiredTestClass :=
  (assetTypes.flatMap planner.catalog.requiredFor).dedup

/-- A line of the prompt. -/
def candidate (cls : RequiredTestClass) : String :=
  let cwe := String.intercalate "," cls.cwe
  "- \"" ++ cls.id ++ "\" (risk=" ++ cls.risk.value ++ ", cwe=" ++ (if cwe = "" then "-" else cwe) ++
    ")"

/-- `_build_prompt`. -/
def buildPrompt : String :=
  "You select security test classes for an authorized pentest mission.\n" ++
    "Mission intent: " ++ intent ++ "\n" ++ "Mission intent: " ++ intent ++ "\n" ++
    "Risk cap: " ++ riskCap.elim "no cap" RiskClass.value ++
    ". A class AT or BELOW the cap may be selected; classes above it must NOT be selected.\n" ++
    "Choose the most relevant class ids from this exact list. " ++
    "Reply with ONLY a JSON array of strings, e.g. [\"a\",\"b\"].\n" ++
    "Candidates:\n" ++ String.intercalate "\n" (planner.catalog.classes.map candidate)

/-- `chosen_ids`: nothing is chosen when the backend raises, or its answer cannot be read. -/
def chosenIds (backend : ModelBackend ε) : List String :=
  match backend (planner.buildPrompt intent riskCap) with
  | .error _ => []
  | .ok raw => (((planner.loads raw).bind iterate).getD []).filterMap Json.text?

/-- `_llm_classes`. -/
def llmClasses (backend : ModelBackend ε) : List RequiredTestClass :=
  (((planner.chosenIds intent riskCap backend).filterMap planner.catalog.known.get?).filter
    fun cls => withinCap riskCap cls.risk).dedup

/-- `_asset_type_of`. -/
def assetTypeOf (classId : String) : Option AssetType :=
  AssetType.all.find? fun assetType =>
    assetType.value.toList == (partition ':' classId.toList).1

/-- A tuple of texts among the parameters of a step, as its canonical JSON. -/
def tupleText (texts : List String) : Str := (Json.list (texts.map .text)).dumps

/-- `_to_step`. -/
def toStep (assetType : AssetType) (cls : RequiredTestClass) : PlanStep where
  key := assetType.value ++ ":" ++
    String.ofList (removePrefix cls.id.toList (assetType.value ++ ":").toList)
  runner := (planner.runners.get? assetType).getD "adapter"
  risk := cls.risk
  parameters :=
    ⟨[("asset_type", assetType.value.toList), ("test_class", cls.id.toList),
      ("cwe", tupleText cls.cwe), ("owasp", tupleText cls.owasp), ("intent", intent.toList)],
      (by decide : ["asset_type", "test_class", "cwe", "owasp", "intent"].Nodup)⟩
  dependencies := []

/-- The steps of the required classes. -/
def floorSteps (assetTypes : List AssetType) : List PlanStep :=
  let floor := capped (planner.floorClasses assetTypes) riskCap
  assetTypes.flatMap fun assetType =>
    (sortedById (floor.filter fun cls => cls ∈ planner.catalog.requiredFor assetType)).map
      (planner.toStep intent assetType)

/-- The steps of further classes: a class without an asset type is left out, and so is one whose key
is there already. -/
def addSteps (existingKeys : List String) : List RequiredTestClass → List PlanStep
  | [] => []
  | cls :: classes =>
    match assetTypeOf cls.id with
    | none => addSteps existingKeys classes
    | some owner =>
      let step := planner.toStep intent owner cls
      if step.key ∈ existingKeys then addSteps existingKeys classes
      else step :: addSteps (step.key :: existingKeys) classes

/-- The steps that the model adds. -/
def addedSteps (assetTypes : List AssetType) (backend : Option (ModelBackend ε)) : List PlanStep :=
  match backend with
  | none => []
  | some backend =>
    planner.addSteps intent ((planner.floorSteps intent riskCap assetTypes).map PlanStep.key)
      (sortedById (capped (planner.llmClasses intent riskCap backend) riskCap))

/-- `generate`, with the digest of the steps given. -/
def generate (backend : Option (ModelBackend ε)) (planId assessmentId : String)
    (assetTypes : List AssetType) (digest : List PlanStep → String) :
    Except ServiceError ExecutionPlan :=
  let steps := planner.floorSteps intent riskCap assetTypes ++
    planner.addedSteps intent riskCap assetTypes backend
  ExecutionPlan.create planId assessmentId 1 steps (digest steps)

end LLMPlanner

/-- The plan is the other one with further steps, which have keys of their own; all risks are within
the cap. -/
structure Extends (riskCap : Option RiskClass) (digest : List PlanStep → String)
    (plan planned : ExecutionPlan) : Prop where
  steps : ∃ added, planned =
    { plan with steps := plan.steps ++ added, digest := digest (plan.steps ++ added) }
  unique : (planned.steps.map PlanStep.key).Nodup
  within : ∀ step ∈ planned.steps, withinCap riskCap step.risk = true

namespace LLMPlanner

section Spec

variable {ε : Type} {planner : LLMPlanner} {intent : String} {riskCap : Option RiskClass}
  {assetTypes : List AssetType} {existingKeys : List String} {classes : List RequiredTestClass}
  {backend : Option (ModelBackend ε)} {step : PlanStep}

theorem mem_sortedById {cls : RequiredTestClass} : cls ∈ sortedById classes ↔ cls ∈ classes :=
  (List.mergeSort_perm _ _).mem_iff

theorem mem_capped {cls : RequiredTestClass} :
    cls ∈ capped classes riskCap ↔ cls ∈ classes ∧ withinCap riskCap cls.risk = true :=
  List.mem_filter

/-- The steps of required classes are within the cap. -/
theorem floorSteps_spec (h : step ∈ planner.floorSteps intent riskCap assetTypes) :
    withinCap riskCap step.risk = true ∧ step.dependencies = [] := by
  obtain ⟨assetType, -, hstep⟩ := List.mem_flatMap.mp h
  obtain ⟨cls, hcls, rfl⟩ := List.mem_map.mp hstep
  rw [mem_sortedById] at hcls
  exact ⟨(mem_capped.mp (List.mem_filter.mp hcls).1).2, rfl⟩

/-- A step of further classes is the step of one of them. -/
theorem addSteps_spec (h : step ∈ planner.addSteps intent existingKeys classes) :
    ∃ cls ∈ classes, ∃ owner, step = planner.toStep intent owner cls := by
  induction classes generalizing existingKeys with
  | nil => cases h
  | cons cls classes ih =>
    rw [addSteps] at h
    split at h
    · obtain ⟨cls', hcls', hstep⟩ := ih h
      exact ⟨cls', List.mem_cons_of_mem _ hcls', hstep⟩
    next owner howner =>
      simp only at h
      split at h
      · obtain ⟨cls', hcls', hstep⟩ := ih h
        exact ⟨cls', List.mem_cons_of_mem _ hcls', hstep⟩
      · rcases List.mem_cons.mp h with rfl | h
        · exact ⟨cls, List.mem_cons_self, owner, rfl⟩
        · obtain ⟨cls', hcls', hstep⟩ := ih h
          exact ⟨cls', List.mem_cons_of_mem _ hcls', hstep⟩

/-- The keys of further steps are new, and differ from one another. -/
theorem addSteps_keys (planner : LLMPlanner) (intent : String) (classes : List RequiredTestClass)
    (existingKeys : List String) :
    ((planner.addSteps intent existingKeys classes).map PlanStep.key).Nodup ∧
      ∀ step ∈ planner.addSteps intent existingKeys classes, step.key ∉ existingKeys := by
  induction classes generalizing existingKeys with
  | nil => exact ⟨List.nodup_nil, fun step h => by cases h⟩
  | cons cls classes ih =>
    rw [addSteps]
    split
    · exact ih existingKeys
    next owner howner =>
      simp only
      split
      · exact ih existingKeys
      next hnew =>
        obtain ⟨hnodup, hfresh⟩ := ih ((planner.toStep intent owner cls).key :: existingKeys)
        refine ⟨?_, ?_⟩
        · rw [List.map_cons, List.nodup_cons]
          refine ⟨fun hmem => ?_, hnodup⟩
          obtain ⟨step, hstep, hkey⟩ := List.mem_map.mp hmem
          exact hfresh step hstep (by rw [hkey]; exact List.mem_cons_self)
        · intro step hstep
          rcases List.mem_cons.mp hstep with rfl | hstep
          · exact hnew
          · exact fun hmem => hfresh step hstep (List.mem_cons_of_mem _ hmem)

/-- The steps that a model adds are within the cap. -/
theorem addedSteps_spec (h : step ∈ planner.addedSteps intent riskCap assetTypes backend) :
    withinCap riskCap step.risk = true ∧ step.dependencies = [] := by
  cases backend with
  | none => cases h
  | some backend =>
    obtain ⟨cls, hcls, owner, rfl⟩ := addSteps_spec h
    rw [mem_sortedById] at hcls
    exact ⟨(mem_capped.mp hcls).2, rfl⟩

/-- The added steps keep the keys unique. -/
theorem keys_nodup
    (h : ((planner.floorSteps intent riskCap assetTypes).map PlanStep.key).Nodup) :
    ((planner.floorSteps intent riskCap assetTypes ++
      planner.addedSteps intent riskCap assetTypes backend).map PlanStep.key).Nodup := by
  cases backend with
  | none => simpa [addedSteps] using h
  | some backend =>
    rw [List.map_append, List.nodup_append]
    obtain ⟨hnodup, hfresh⟩ := addSteps_keys planner intent
      (sortedById (capped (planner.llmClasses intent riskCap backend) riskCap))
      ((planner.floorSteps intent riskCap assetTypes).map PlanStep.key)
    refine ⟨h, hnodup, ?_⟩
    rintro key hkey _ hadded rfl
    obtain ⟨step, hstep, rfl⟩ := List.mem_map.mp hadded
    exact hfresh step hstep hkey

end Spec

end LLMPlanner

/-- **What a model can do to a plan**: if the plan without a model is accepted, so is the plan with
any model, whatever it answers or raises, and it is the plan without a model with further steps, all of
them within the cap. So the plans with two models differ in their further steps only. -/
theorem llm_plan_safe {ε : Type} (planner : LLMPlanner) (intent : String)
    (riskCap : Option RiskClass) (planId assessmentId : String) (assetTypes : List AssetType)
    (digest : List PlanStep → String) (plan : ExecutionPlan)
    (hplan : planner.generate intent riskCap (none : Option (ModelBackend ε)) planId assessmentId
      assetTypes digest = .ok plan) :
    ∀ backend backend' : ModelBackend ε, ∃ planned planned',
      planner.generate intent riskCap (some backend) planId assessmentId assetTypes digest =
          .ok planned ∧
        planner.generate intent riskCap (some backend') planId assessmentId assetTypes digest =
          .ok planned' ∧
        Extends riskCap digest plan planned ∧ Extends riskCap digest plan planned' ∧
        ∃ added added', planned.steps = plan.steps ++ added ∧
          planned'.steps = plan.steps ++ added' := by
  simp only [LLMPlanner.generate] at hplan
  obtain ⟨heq, hnodup⟩ := ExecutionPlan.create_ok hplan
  have hfloor : plan.steps = planner.floorSteps intent riskCap assetTypes := by
    rw [heq]
    exact List.append_nil _
  rw [hfloor] at hnodup
  -- With a model the floor is followed by what the model adds.
  have hgenerate : ∀ backend : ModelBackend ε, ∃ planned,
      planner.generate intent riskCap (some backend) planId assessmentId assetTypes digest =
          .ok planned ∧
        Extends riskCap digest plan planned ∧
        ∃ added, planned.steps = plan.steps ++ added := by
    intro backend
    have hspec : ∀ step ∈ planner.floorSteps intent riskCap assetTypes ++
        planner.addedSteps intent riskCap assetTypes (some backend),
        withinCap riskCap step.risk = true ∧ step.dependencies = [] := by
      intro step hstep
      rcases List.mem_append.mp hstep with hstep | hstep
      · exact LLMPlanner.floorSteps_spec hstep
      · exact LLMPlanner.addedSteps_spec hstep
    have hsteps : plan.steps ++ planner.addedSteps intent riskCap assetTypes (some backend) =
        planner.floorSteps intent riskCap assetTypes ++
          planner.addedSteps intent riskCap assetTypes (some backend) := by rw [hfloor]
    refine ⟨_, ExecutionPlan.create_of_independent le_rfl (LLMPlanner.keys_nodup hnodup)
      fun step hstep => (hspec step hstep).2,
      ⟨⟨planner.addedSteps intent riskCap assetTypes (some backend), ?_⟩,
        LLMPlanner.keys_nodup hnodup, fun step hstep => (hspec step hstep).1⟩,
      planner.addedSteps intent riskCap assetTypes (some backend), hsteps.symm⟩
    rw [hsteps, heq]
  intro backend backend'
  obtain ⟨planned, hplanned, hextends, added, hadded⟩ := hgenerate backend
  obtain ⟨planned', hplanned', hextends', added', hadded'⟩ := hgenerate backend'
  exact ⟨planned, planned', hplanned, hplanned', hextends, hextends', added, added', hadded, hadded'⟩

/-! ### A model that chooses what it should not -/

/-- A class of the catalog. -/
def crossSiteClass : RequiredTestClass := ⟨"web_app:xss", ["CWE-79"], [], .low, by decide⟩

/-- A class above the cap. -/
def activeClass : RequiredTestClass := ⟨"api:bola", [], [], .active, by decide⟩

/-- A planner whose models choose the required class again, one above the cap and one that is made
up. -/
def smallPlanner : LLMPlanner where
  catalog := ⟨⟨[(.webApp, [crossSiteClass]), (.api, [activeClass])], by decide⟩⟩
  loads _ := some (.list [.text "web_app:xss", .text "api:bola", .text "made up", .int 7])

/-- The required class is planned, whatever the models say. -/
theorem small_plan_safe :
    ∃ planned, smallPlanner.generate "find xss" (some .low)
        (some fun _ => (.ok "" : Except Unit String)) "plan-1" "asm-1" [.webApp] (fun _ => "") =
          .ok planned ∧
      ∃ plan, Extends (some .low) (fun _ => "") plan planned ∧ plan.steps.length = 1 := by
  have hnone : smallPlanner.generate "find xss" (some .low) (none : Option (ModelBackend Unit))
      "plan-1" "asm-1" [.webApp] (fun _ => "") =
        .ok ⟨"plan-1", "asm-1", 1, [smallPlanner.toStep "find xss" .webApp crossSiteClass], ""⟩ := by
    decide +kernel
  obtain ⟨planned, -, hplanned, -, hextends, -⟩ := llm_plan_safe smallPlanner "find xss" (some .low)
    "plan-1" "asm-1" [.webApp] (fun _ => "") _ hnone (fun _ => .ok "") fun _ => .error ()
  exact ⟨planned, hplanned, _, hextends, rfl⟩

end SecOpent
