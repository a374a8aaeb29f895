import SecOpent.AppModels.ModelRegistry
import SecOpent.Transition.Conditions

/-!
# Snapshots of published models

Runs of `ModelRegistry`, with a record of the models that were published and of the snapshots that were
taken. The history of an application is what was published of it, in order, and its last model is the
published one. A snapshot is overwritten by one of another model under the same id.

## Main definitions

* `RegistryRun`: the registry, the models that were published, and the snapshots that were taken
* `RegistryRun.Kept`: histories keep what was published
* `RegistryRun.Pinned`: snapshots keep what was pinned
* `RegistryRun.PinsAfresh`: the condition on a call

## Main results

* `kept_step`: every call keeps the histories
* `pinned_step_iff`: exactly when a call leaves the snapshots pinned
* `snapshots_stable_iff`: exactly when a run does
-/

namespace SecOpent

open Python Transition

/-- A snapshot that was taken: its id, what it was taken for, and the model that was pinned. -/
structure Pin where
  id : String
  assessmentId : String
  appId : String
  model : AppModelRecord

/-- A registry, the models that were published in it, and the snapshots that were taken. -/
structure RegistryRun where
  registry : ModelRegistry
  published : List AppModelRecord
  pins : List Pin

/-- A call that changes the registry. -/
inductive RegistryAction
  | publish (model : AppModelRecord)
  | snapshot (assessmentId appId : String)

namespace RegistryRun

/-- Nothing happened. -/
def empty : RegistryRun := ⟨.empty, [], []⟩

/-- A call as a step. -/
def step (run : RegistryRun) : RegistryAction → Option RegistryRun
  | .publish model =>
    match ModelRegistry.publish model run.registry with
    | (.ok published, after) =>
      some { run with registry := after, published := run.published ++ [published] }
    | (.error _, after) => some { run with registry := after }
  | .snapshot assessmentId appId =>
    match ModelRegistry.snapshotForAssessment assessmentId appId run.registry with
    | (.ok id, after) =>
      -- What was returned is an id, and what was pinned is what is now found under it.
      some { run with
        registry := after
        pins := run.pins ++ (after.snapshots.get? id).toList.map (⟨id, assessmentId, appId, ·⟩) }
    | (.error _, after) => some { run with registry := after }

/-- The history of an application has the contents that were published of it, in order, and all models
but the last one are superseded. -/
structure Kept (run : RegistryRun) : Prop where
  contents : ∀ appId, (run.registry.historyOf appId).map AppModelRecord.content =
    (run.published.map AppModelRecord.content).filter fun content => content.appId = appId
  last : ∀ appId before model, run.registry.historyOf appId = before ++ [model] →
    model.status = .published ∧ ∀ old ∈ before, old.status ≠ .published

/-- An id that was returned resolves to the content that was pinned, and ids of different assessments or
applications differ. -/
structure Pinned (run : RegistryRun) : Prop where
  resolves : ∀ pin ∈ run.pins, ∃ model,
    ModelRegistry.getSnapshot pin.id run.registry = (.ok model, run.registry) ∧
      model.content = pin.model.content
  distinct : ∀ pin ∈ run.pins, ∀ pin' ∈ run.pins, pin.id = pin'.id →
    pin.assessmentId = pin'.assessmentId ∧ pin.appId = pin'.appId

/-- Snapshots and histories are stable. -/
def Stable (run : RegistryRun) : Prop := run.Kept ∧ run.Pinned

/-- The condition on a snapshot: those that were taken under the same id are of the same assessment and
application, and of the content that is published now. -/
def PinsAfresh (run : RegistryRun) : RegistryAction → Prop
  | .publish _ => True
  | .snapshot assessmentId appId => ∀ model, run.registry.current? appId = some model →
    ∀ pin ∈ run.pins, pin.id = snapshotId assessmentId appId model.content.version →
      pin.assessmentId = assessmentId ∧ pin.appId = appId ∧ pin.model.content = model.content

/-! ## Histories -/

section Steps

variable {run next : RegistryRun} {action : RegistryAction} {model : AppModelRecord}
  {assessmentId appId : String}

theorem historyOf_withPublished (registry : ModelRegistry) (published : AppModelRecord)
    (appId : String) :
    (registry.withPublished published).historyOf appId =
      if appId = published.content.appId then
        (registry.historyOf appId).map AppModelRecord.retired ++ [published]
      else registry.historyOf appId := by
  rw [ModelRegistry.historyOf, ModelRegistry.withPublished]
  simp only [Dict.get?_set]
  split
  next h => rw [h]; rfl
  next => rfl

theorem content_retired (model : AppModelRecord) : model.retired.content = model.content := by
  unfold AppModelRecord.retired
  split <;> rfl

theorem status_retired_ne (model : AppModelRecord) : model.retired.status ≠ .published := by
  unfold AppModelRecord.retired
  split
  · simp
  next h => exact h

/-- The run after a model is pinned. -/
def pinning (run : RegistryRun) (assessmentId appId : String) (model : AppModelRecord) : RegistryRun :=
  let id := snapshotId assessmentId appId model.content.version
  { run with
    registry := { run.registry with snapshots := run.registry.snapshots.set id model }
    pins := run.pins ++ [⟨id, assessmentId, appId, model⟩] }

@[simp]
theorem snapshots_pinning : (run.pinning assessmentId appId model).registry.snapshots =
    run.registry.snapshots.set (snapshotId assessmentId appId model.content.version) model := rfl

/-- What a call leaves: the registry as it was, one more published model, or one more snapshot. -/
theorem step_cases (h : run.step action = some next) :
    (next = run) ∨
      (∃ model, action = .publish model ∧ model.status = .signed ∧
        next = { run with
          registry := run.registry.withPublished (model.moved .published)
          published := run.published ++ [model.moved .published] }) ∨
      ∃ assessmentId appId model, action = .snapshot assessmentId appId ∧
        run.registry.current? appId = some model ∧
        next = run.pinning assessmentId appId model := by
  -- A call that fails leaves the registry as it was.
  cases action with
  | publish model =>
    simp only [step] at h
    split at h
    next published after hcall =>
      obtain ⟨hsigned, rfl, rfl⟩ := ModelRegistry.publish_eq_ok.mp hcall
      cases h
      exact .inr (.inl ⟨model, rfl, hsigned, rfl⟩)
    next error after hcall =>
      obtain rfl := ModelRegistry.publish_clean _ _ _ hcall
      cases h
      exact .inl rfl
  | snapshot assessmentId appId =>
    simp only [step] at h
    split at h
    next id after hcall =>
      obtain ⟨model, hcurrent, rfl, rfl⟩ := ModelRegistry.snapshotForAssessment_eq_ok.mp hcall
      simp only [Dict.get?_set, if_pos, Option.toList_some, List.map_cons, List.map_nil] at h
      cases h
      exact .inr (.inr ⟨assessmentId, appId, model, rfl, hcurrent, rfl⟩)
    next error after hcall =>
      obtain rfl := ModelRegistry.snapshotForAssessment_clean _ _ _ hcall
      cases h
      exact .inl rfl

/-- **Every call keeps the histories.** -/
theorem kept_step (hkept : run.Kept) (h : run.step action = some next) : next.Kept := by
  rcases step_cases h with rfl | ⟨model, rfl, -, rfl⟩ | ⟨assessmentId, appId, model, rfl, -, rfl⟩
  · exact hkept
  · constructor
    · intro appId
      have hretired : AppModelRecord.content ∘ AppModelRecord.retired = AppModelRecord.content :=
        funext content_retired
      rw [historyOf_withPublished, List.map_append, List.filter_append, ← hkept.contents]
      split
      next hsame => simp [hretired, hsame]
      next hother =>
        have hne : model.content.appId ≠ appId := Ne.symm hother
        simp [hne]
    · intro appId before last hhistory
      rw [historyOf_withPublished] at hhistory
      split at hhistory
      next =>
        -- What was published before is retired, and the new model is the last one.
        obtain ⟨rfl, hlast⟩ := List.append_inj' hhistory rfl
        obtain rfl := List.singleton_inj.mp hlast
        refine ⟨rfl, fun old hold => ?_⟩
        obtain ⟨model', -, rfl⟩ := List.mem_map.mp hold
        exact status_retired_ne model'
      next => exact hkept.last appId before last hhistory
  · exact ⟨hkept.contents, hkept.last⟩

/-! ## Snapshots -/

theorem step_snapshot (h : run.registry.current? appId = some model) :
    run.step (.snapshot assessmentId appId) = some (run.pinning assessmentId appId model) := by
  simp only [step, ModelRegistry.snapshotForAssessment_eq_ok.mpr ⟨model, h, rfl, rfl⟩]
  simp [pinning]

theorem getSnapshot_iff {registry : ModelRegistry} {id : String} {content : AppModelContent} :
    (∃ model, ModelRegistry.getSnapshot id registry = (.ok model, registry) ∧
      model.content = content) ↔
      ∃ model, registry.snapshots.get? id = some model ∧ model.content = content := by
  simp only [ModelRegistry.getSnapshot_eq_ok, and_true]

/-- **A call leaves the snapshots pinned** exactly if it pins afresh. -/
theorem pinned_step_iff (hpinned : run.Pinned) :
    (∀ next, run.step action = some next → next.Pinned) ↔ run.PinsAfresh action := by
  constructor
  · intro hnext
    cases action with
    | publish model => trivial
    | snapshot assessmentId appId =>
      intro model hcurrent pin hpin hid
      have hafter := hnext _ (step_snapshot hcurrent)
      -- The older snapshot under the id resolves to the model that is pinned now.
      obtain ⟨found, hfound, hcontent⟩ :=
        getSnapshot_iff.mp (hafter.resolves pin (List.mem_append_left _ hpin))
      obtain ⟨hassessment, happ⟩ := hafter.distinct pin (List.mem_append_left _ hpin) _
        (List.mem_append_right _ (List.mem_singleton_self _)) hid
      rw [snapshots_pinning, Dict.get?_set, if_pos hid] at hfound
      cases hfound
      exact ⟨hassessment, happ, hcontent.symm⟩
  · intro hafresh next h
    rcases step_cases h with rfl | ⟨model, rfl, -, rfl⟩ |
      ⟨assessmentId, appId, model, rfl, hcurrent, rfl⟩
    · exact hpinned
    · refine ⟨fun pin hpin => getSnapshot_iff.mpr ?_, hpinned.distinct⟩
      have hfound := getSnapshot_iff.mp (hpinned.resolves pin hpin)
      exact hfound
    · -- An id that was pinned before is overwritten, with the content that it had.
      have hsame := hafresh model hcurrent
      refine ⟨fun pin hpin => getSnapshot_iff.mpr ?_, ?_⟩
      · simp only [snapshots_pinning, Dict.get?_set]
        rcases List.mem_append.mp hpin with hold | hnew
        · split
          next hid => exact ⟨model, rfl, (hsame pin hold hid).2.2.symm⟩
          next => exact getSnapshot_iff.mp (hpinned.resolves pin hold)
        · obtain rfl := List.mem_singleton.mp hnew
          exact ⟨model, if_pos rfl, rfl⟩
      · refine (forall_pairs_concat (fun pin pin' hpins hid => ?_) fun _ => ⟨rfl, rfl⟩).mpr
          ⟨hpinned.distinct, fun pin hold hid => ?_⟩
        · obtain ⟨hassessment, happ⟩ := hpins hid.symm
          exact ⟨hassessment.symm, happ.symm⟩
        · obtain ⟨hassessment, happ, -⟩ := hsame pin hold hid
          exact ⟨hassessment, happ⟩

/-! ## All runs -/

theorem kept_empty : Kept empty where
  contents _ := rfl
  last appId before model h := by simp [empty, ModelRegistry.empty, ModelRegistry.historyOf] at h

theorem pinned_empty : Pinned empty where
  resolves _ h := by cases h
  distinct _ h := by cases h

end Steps

end RegistryRun

/-- **Published models and their snapshots are stable** in every state of a run exactly if every
snapshot pins afresh. -/
theorem snapshots_stable_iff (actions : List RegistryAction) :
    Always RegistryRun.step RegistryRun.Stable .empty actions ↔
      runMeets RegistryRun.step RegistryRun.PinsAfresh .empty actions := by
  refine always_iff (fun _ => True) (fun _ _ _ _ _ => trivial) (fun run action _ hstable => ?_) trivial
    ⟨RegistryRun.kept_empty, RegistryRun.pinned_empty⟩
  -- The histories are kept in any case, so stability rests on the snapshots.
  rw [← RegistryRun.pinned_step_iff hstable.2]
  exact ⟨fun h next hnext => (h next hnext).2,
    fun h next hnext => ⟨RegistryRun.kept_step hstable.1 hnext, h next hnext⟩⟩

/-- A signed version of a store. -/
def storeWithStates (states : List String) (h : states ≠ []) : AppModelRecord where
  content :=
    { appId := "store", version := "5.0", states
      appId_ne := by decide, version_ne := by decide, states_ne := h }
  status := .signed
  digest := "sha256:e1"
  digest_ne := by decide

/-- A version is published and pinned twice, the second time with other states. -/
def republishedStore : List RegistryAction :=
  [.publish (storeWithStates ["cart"] (by decide)), .snapshot "a1" "store",
    .publish (storeWithStates ["cart", "paid"] (by decide)), .snapshot "a1" "store"]

/-- The first snapshot resolves to the model that was published later. -/
theorem republished_snapshot_changes :
    ¬Always RegistryRun.step RegistryRun.Stable .empty republishedStore := by
  intro h
  have hpins : ((runLabels RegistryRun.step .empty republishedStore).map fun run =>
      run.pins.map fun pin => (pin.id, pin.model.content.states)) =
        some [("appmodel-snap:a1:store:5.0", ["cart"]),
          ("appmodel-snap:a1:store:5.0", ["cart", "paid"])] := by decide +kernel
  have hfound : ((runLabels RegistryRun.step .empty republishedStore).bind fun run =>
      (run.registry.snapshots.get? "appmodel-snap:a1:store:5.0").map fun model =>
        model.content.states) = some ["cart", "paid"] := by decide +kernel
  obtain ⟨run, hrun, hmodel⟩ := Option.bind_eq_some_iff.mp hfound
  obtain ⟨model, hmodel, hstates⟩ := Option.map_eq_some_iff.mp hmodel
  rw [hrun, Option.map_some, Option.some.injEq] at hpins
  obtain ⟨pin, hpin, hshown⟩ : ∃ pin ∈ run.pins,
      (pin.id, pin.model.content.states) = ("appmodel-snap:a1:store:5.0", ["cart"]) :=
    List.mem_map.mp (hpins ▸ List.mem_cons_self)
  obtain ⟨hid, hpinned⟩ := Prod.mk.inj hshown
  obtain ⟨found, hget, hcontent⟩ := (h republishedStore [] run rfl hrun).2.resolves pin hpin
  have hsame : found = model := by
    have hsnapshot := (ModelRegistry.getSnapshot_eq_ok.mp hget).1
    rw [hid, hmodel] at hsnapshot
    exact (Option.some.inj hsnapshot).symm
  rw [← hcontent, hsame, hstates] at hpinned
  exact absurd hpinned (by decide)

end SecOpent
