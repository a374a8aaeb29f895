import SecOpent.AppModels.Models
import SecOpent.Python.Call

/-!
# Published models

`ModelRegistry` of `application/model_registry.py`. A signed model is published as the last version
of its application, and supersedes the version before it. An assessment pins the version that is
published at the time, under an id that joins the assessment, the application and the version.

## Main definitions

* `ModelRegistry`: `publish`, `versions`, `current`, `snapshotForAssessment`, `getSnapshot`
* `snapshotId`: the id of a snapshot
* `ModelRegistry.historyOf`, `ModelRegistry.current?`: the versions of an application, and the
  published one

## Main results

* `publish_eq_ok`, `snapshotForAssessment_eq_ok`: when a call returns, and what it leaves
* `publish_clean`, `snapshotForAssessment_clean`: a call that raises changes nothing
-/

namespace SecOpent

open Python

/-- `ModelRegistry`. -/
structure ModelRegistry where
  history : Dict String (List AppModelRecord)
  snapshots : Dict String AppModelRecord

/-- The id of a snapshot. -/
def snapshotId (assessmentId appId version : String) : String :=
  "appmodel-snap:" ++ (assessmentId ++ (":" ++ (appId ++ (":" ++ version))))

/-- The published version is superseded. -/
def AppModelRecord.retired (model : AppModelRecord) : AppModelRecord :=
  if model.status = .published then model.moved .superseded else model

namespace ModelRegistry

/-- Nothing is published. -/
def empty : ModelRegistry := ⟨.empty, .empty⟩

/-- `self._history.get(app_id, [])`. -/
def historyOf (registry : ModelRegistry) (appId : String) : List AppModelRecord :=
  (registry.history.get? appId).getD []

/-- The model that `current` returns. -/
def current? (registry : ModelRegistry) (appId : String) : Option AppModelRecord :=
  (registry.historyOf appId).reverse.find? fun model => model.status = .published

/-- The check of `publish`. -/
def checkSigned (model : AppModelRecord) : Call ModelRegistry Unit :=
  if model.status = .signed then pure ()
  else .raise ("model " ++ model.content.appId ++ " must be SIGNED to publish (is " ++
    model.status.value ++ ")")

/-- The history of an application with a new published version. -/
def withPublished (registry : ModelRegistry) (published : AppModelRecord) : ModelRegistry :=
  { registry with
    history := registry.history.set published.content.appId
      ((registry.historyOf published.content.appId).map AppModelRecord.retired ++ [published]) }

/-- `self._history[model.app_id] = superseded_history`. -/
def record (published : AppModelRecord) : Call ModelRegistry Unit := fun registry =>
  (.ok (), registry.withPublished published)

/-- `publish`. -/
def publish (model : AppModelRecord) : Call ModelRegistry AppModelRecord := do
  checkSigned model
  record (model.moved .published)
  pure (model.moved .published)

/-- `versions`. -/
def versions (appId : String) : Call ModelRegistry (List AppModelRecord) := fun registry =>
  if registry.historyOf appId = [] then (.error ("no published model for app_id=" ++ appId), registry)
  else (.ok (registry.historyOf appId), registry)

/-- `current`. -/
def current (appId : String) : Call ModelRegistry AppModelRecord := fun registry =>
  match registry.current? appId with
  | some model => (.ok model, registry)
  | none => (.error ("no published model for app_id=" ++ appId), registry)

/-- `self._snapshots[snapshot_id] = published`. -/
def store (id : String) (model : AppModelRecord) : Call ModelRegistry Unit := fun registry =>
  (.ok (), { registry with snapshots := registry.snapshots.set id model })

/-- `snapshot_for_assessment`. -/
def snapshotForAssessment (assessmentId appId : String) : Call ModelRegistry String := do
  let published ← current appId
  let id := snapshotId assessmentId appId published.content.version
  store id published
  pure id

/-- `get_snapshot`. -/
def getSnapshot (id : String) : Call ModelRegistry AppModelRecord := fun registry =>
  match registry.snapshots.get? id with
  | some model => (.ok model, registry)
  | none => (.error ("unknown snapshot: " ++ id), registry)

/-! ## What the calls do -/

section Calls

variable {registry after : ModelRegistry} {model published : AppModelRecord}
  {assessmentId appId id : String}

theorem checkSigned_eq_ok {u : Unit} :
    checkSigned model registry = (.ok u, after) ↔ model.status = .signed ∧ registry = after := by
  unfold checkSigned
  split
  next h => simp [h]
  next h => simp [h]

theorem checkSigned_silent : (checkSigned model).Silent := by
  unfold checkSigned
  split
  · exact .pure _
  · exact .raise _

theorem current_eq_ok : current appId registry = (.ok model, after) ↔
    registry.current? appId = some model ∧ registry = after := by
  unfold current
  cases registry.current? appId with
  | none => simp
  | some found => simp

theorem current_silent : (current appId).Silent := by
  intro registry
  unfold current
  cases registry.current? appId with
  | none => rfl
  | some found => rfl

/-- A signed model is published as the last version of its application. -/
theorem publish_eq_ok : publish model registry = (.ok published, after) ↔
    model.status = .signed ∧ published = model.moved .published ∧
      after = registry.withPublished published := by
  -- The check, the history and what is returned, in this order.
  unfold publish
  simp only [Call.bind_eq_ok, checkSigned_eq_ok]
  constructor
  · rintro ⟨_, _, ⟨hsigned, rfl⟩, _, _, hrecord, hpure⟩
    cases hrecord
    cases hpure
    exact ⟨hsigned, rfl, rfl⟩
  · rintro ⟨hsigned, rfl, rfl⟩
    exact ⟨(), registry, ⟨hsigned, rfl⟩, (), _, rfl, rfl⟩

theorem publish_clean : (publish model).Clean :=
  checkSigned_silent.bind_clean fun _ => Call.Returns.clean fun _ => ⟨_, _, rfl⟩

/-- A snapshot is taken of the published version, under its id. -/
theorem snapshotForAssessment_eq_ok :
    snapshotForAssessment assessmentId appId registry = (.ok id, after) ↔
      ∃ model, registry.current? appId = some model ∧
        id = snapshotId assessmentId appId model.content.version ∧
        after = { registry with snapshots := registry.snapshots.set id model } := by
  unfold snapshotForAssessment
  simp only [Call.bind_eq_ok, current_eq_ok]
  constructor
  · rintro ⟨model, _, ⟨hcurrent, rfl⟩, _, _, hstore, hpure⟩
    cases hstore
    cases hpure
    exact ⟨model, hcurrent, rfl, rfl⟩
  · rintro ⟨model, hcurrent, rfl, rfl⟩
    exact ⟨model, registry, ⟨hcurrent, rfl⟩, (), _, rfl, rfl⟩

theorem snapshotForAssessment_clean : (snapshotForAssessment assessmentId appId).Clean :=
  current_silent.bind_clean fun _ => Call.Returns.clean fun _ => ⟨_, _, rfl⟩

theorem getSnapshot_eq_ok :
    getSnapshot id registry = (.ok model, after) ↔
      registry.snapshots.get? id = some model ∧ after = registry := by
  unfold getSnapshot
  split
  next found h => simp [h, eq_comm]
  next h => simp [h]

end Calls

end ModelRegistry

end SecOpent
