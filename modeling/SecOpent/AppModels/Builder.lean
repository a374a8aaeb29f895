import SecOpent.AppModels.Import

/-!
# The model builder

`ModelBuilder` of `application/model_builder.py`, which keeps one model for each application. A human
validates a model, and may hand in another one in its place, whose digest `replace` takes over.

## Main definitions

* `ModelBuilder`: `importModel`, `registerProposed`, `validate`, `sign`
* `BuilderModels.Keyed`: a model is stored under its application

## Main results

* `importModel_eq_ok`, `validate_eq_ok`, `sign_eq_ok`: when a call returns, and what it stores
* `keyed_of_clean`: a call that stores under the application leaves keyed models
-/

namespace SecOpent

open Python

/-- The models of a builder, by application. -/
abbrev BuilderModels := Dict String AppModelRecord

/-- A model is stored under its application. -/
def BuilderModels.Keyed (models : BuilderModels) : Prop :=
  ∀ appId model, models.get? appId = some model → model.content.appId = appId

/-- A call on a builder that returns a model. -/
abbrev BuilderCall := Call BuilderModels AppModelRecord

/-- `ModelBuilder`, with the digest that the models are constructed with, and `repr`. -/
structure ModelBuilder where
  digest : ContentDigest
  importers : Dict String ModelImporter
  signer : Option ModelSigner
  repr : String → String

/-- `replace(model, app_id=…)`, of an application that has a name. -/
def AppModelContent.readdressed (content : AppModelContent) (appId : String) (h : appId ≠ "") :
    AppModelContent :=
  { content with appId, appId_ne := h }

namespace ModelBuilder

variable (builder : ModelBuilder)

/-- `self._models[app_id] = model`. -/
def store (appId : String) (model : AppModelRecord) : BuilderCall := fun models =>
  (.ok model, models.set appId model)

/-- `import_model`. -/
def importModel (sourceType : String) (data : Dict String Json) : BuilderCall :=
  match builder.importers.get? sourceType with
  | none => .raise ("no importer registered for source_type=" ++ builder.repr sourceType)
  | some importer => do
    let content ← .ofExcept id (importer data)
    store content.appId (.construct builder.digest content .draft)

/-- `register_proposed`. -/
def registerProposed (model : AppModelRecord) : BuilderCall :=
  store model.content.appId (model.moved .llmProposed)

/-- `get`. -/
def get (appId : String) : BuilderCall := fun models =>
  match models.get? appId with
  | some model => (.ok model, models)
  | none => (.error ("app model not found: " ++ appId), models)

/-- `_check_transition`. -/
def checkTransition (source target : AppModelStatus) : Call BuilderModels Unit :=
  if target ∈ source.transitions then pure ()
  else .raise ("cannot transition model " ++ source.value ++ " -> " ++ target.value)

/-- `_require_human`. -/
def requireHuman (actorRole : String) : Call BuilderModels Unit :=
  if actorRole = "agent" then
    .raise "agents cannot validate or sign app models (human-only action)"
  else if actorRole ≠ "human" then .raise ("unknown actor role: " ++ builder.repr actorRole)
  else pure ()

/-- `replace(base, app_id=app_id, status=…)`, which checks the name. -/
def validated (base : AppModelRecord) (appId : String) : Except String AppModelRecord :=
  -- `replace` hands the digest of the base on.
  if h : appId = "" then .error "AppModel.app_id must be non-empty"
  else .ok { base with content := base.content.readdressed appId h, status := .humanValidated }

/-- `validate`. -/
def validate (appId actorRole : String) (corrections : Option AppModelRecord) : BuilderCall := do
  builder.requireHuman actorRole
  let current ← get appId
  checkTransition current.status .humanValidated
  let model ← .ofExcept id (validated (corrections.getD current) appId)
  store appId model

/-- The signature of a model, if there is a signer. -/
def signatureOf (model : AppModelRecord) : Except String String :=
  match builder.signer with
  | none => .error "no signer configured for ModelBuilder"
  | some signer => signer model.digest

/-- `sign`. -/
def sign (appId actorRole : String) : BuilderCall := do
  builder.requireHuman actorRole
  let current ← get appId
  checkTransition current.status .signed
  let signature ← .ofExcept id (builder.signatureOf current)
  store appId (current.withSignature signature)

section Calls

variable {builder} {models after : BuilderModels} {model new base : AppModelRecord}
  {appId actorRole : String} {source target : AppModelStatus}
  {corrections : Option AppModelRecord}

theorem get_eq_ok : get appId models = (.ok model, after) ↔
    models.get? appId = some model ∧ models = after := by
  unfold get
  cases models.get? appId with
  | none => simp
  | some found => simp

theorem get_silent : (get appId).Silent := by
  intro models
  unfold get
  cases models.get? appId with
  | none => rfl
  | some found => rfl

theorem checkTransition_eq_ok {u : Unit} : checkTransition source target models = (.ok u, after) ↔
    target ∈ source.transitions ∧ models = after := by
  unfold checkTransition
  split
  next h => simp [h]
  next h => simp [h]

theorem checkTransition_silent : (checkTransition source target).Silent := by
  unfold checkTransition
  split
  · exact .pure _
  · exact .raise _

theorem requireHuman_eq_ok {u : Unit} : builder.requireHuman actorRole models = (.ok u, after) ↔
    actorRole = "human" ∧ models = after := by
  unfold requireHuman
  split
  next h => simp [h]
  next =>
    split
    next h => simp [h]
    next h => simp [not_not.mp h]

theorem requireHuman_silent : (builder.requireHuman actorRole).Silent := by
  unfold requireHuman
  split
  · exact .raise _
  · split
    · exact .raise _
    · exact .pure _

theorem store_clean : (store appId model).Clean := Call.Returns.clean fun _ => ⟨_, _, rfl⟩

theorem validated_eq_ok : validated base appId = .ok new ↔
    ∃ h : appId ≠ "", new =
      { base with content := base.content.readdressed appId h, status := .humanValidated } := by
  unfold validated
  split
  next h => simp [h]
  next h => simp [h, eq_comm]

/-- A human validates a draft, or what a model proposed, or puts another model in its place. -/
theorem validate_eq_ok : builder.validate appId actorRole corrections models = (.ok new, after) ↔
    ∃ current, ∃ h : appId ≠ "", actorRole = "human" ∧ models.get? appId = some current ∧
      (current.status = .draft ∨ current.status = .llmProposed) ∧
      new = { corrections.getD current with
        content := (corrections.getD current).content.readdressed appId h
        status := .humanValidated } ∧
      after = models.set appId new := by
  unfold validate
  simp only [Call.bind_eq_ok, requireHuman_eq_ok, get_eq_ok, checkTransition_eq_ok,
    Call.ofExcept_eq_ok, AppModelStatus.humanValidated_mem, validated_eq_ok]
  constructor
  · rintro ⟨_, _, ⟨hhuman, rfl⟩, current, _, ⟨hget, rfl⟩, _, _, ⟨hstatus, rfl⟩, _, _,
      ⟨⟨h, rfl⟩, rfl⟩, hstore⟩
    cases hstore
    exact ⟨current, h, hhuman, hget, hstatus, rfl, rfl⟩
  · rintro ⟨current, h, hhuman, hget, hstatus, rfl, rfl⟩
    exact ⟨(), models, ⟨hhuman, rfl⟩, current, models, ⟨hget, rfl⟩, (), models, ⟨hstatus, rfl⟩, _,
      models, ⟨⟨h, rfl⟩, rfl⟩, rfl⟩

theorem validate_clean : (builder.validate appId actorRole corrections).Clean :=
  requireHuman_silent.bind_clean fun _ => get_silent.bind_clean fun _ =>
    checkTransition_silent.bind_clean fun _ => (Call.Silent.ofExcept _ _).bind_clean fun _ =>
      store_clean

/-- A human signs the digest of a validated model. -/
theorem sign_eq_ok : builder.sign appId actorRole models = (.ok new, after) ↔
    ∃ current signature, actorRole = "human" ∧ models.get? appId = some current ∧
      current.status = .humanValidated ∧ builder.signatureOf current = .ok signature ∧
      new = current.withSignature signature ∧ after = models.set appId new := by
  unfold sign
  simp only [Call.bind_eq_ok, requireHuman_eq_ok, get_eq_ok, checkTransition_eq_ok,
    Call.ofExcept_eq_ok, AppModelStatus.signed_mem]
  constructor
  · rintro ⟨_, _, ⟨hhuman, rfl⟩, current, _, ⟨hget, rfl⟩, _, _, ⟨hstatus, rfl⟩, signature, _,
      ⟨hsigner, rfl⟩, hstore⟩
    cases hstore
    exact ⟨current, signature, hhuman, hget, hstatus, hsigner, rfl, rfl⟩
  · rintro ⟨current, signature, hhuman, hget, hstatus, hsigner, rfl, rfl⟩
    exact ⟨(), models, ⟨hhuman, rfl⟩, current, models, ⟨hget, rfl⟩, (), models, ⟨hstatus, rfl⟩,
      signature, models, ⟨hsigner, rfl⟩, rfl⟩

theorem sign_clean : (builder.sign appId actorRole).Clean :=
  requireHuman_silent.bind_clean fun _ => get_silent.bind_clean fun _ =>
    checkTransition_silent.bind_clean fun _ => (Call.Silent.ofExcept _ _).bind_clean fun _ =>
      store_clean

theorem importModel_clean {sourceType : String} {data : Dict String Json} :
    (builder.importModel sourceType data).Clean := by
  unfold importModel
  cases builder.importers.get? sourceType with
  | none => exact (Call.Silent.raise _).clean
  | some importer => exact (Call.Silent.ofExcept _ _).bind_clean fun _ => store_clean

/-- An import stores a draft under its application. -/
theorem importModel_eq_ok {sourceType : String} {data : Dict String Json}
    (h : builder.importModel sourceType data models = (.ok new, after)) :
    ∃ content, new = .construct builder.digest content .draft ∧
      after = models.set content.appId new := by
  unfold importModel at h
  cases himporter : builder.importers.get? sourceType with
  | none =>
    rw [himporter] at h
    cases h
  | some importer =>
    rw [himporter] at h
    obtain ⟨content, _, hcontent, hstore⟩ := Call.bind_eq_ok.mp h
    obtain ⟨-, rfl⟩ := Call.ofExcept_eq_ok.mp hcontent
    cases hstore
    exact ⟨content, rfl, rfl⟩

/-- A call that stores a model under its application leaves keyed models. -/
theorem keyed_of_clean {x : BuilderCall} (hkeyed : models.Keyed) (hclean : x.Clean)
    (hok : ∀ new after, x models = (.ok new, after) → after = models.set new.content.appId new) :
    BuilderModels.Keyed (x models).2 := by
  rcases hx : x models with ⟨⟨error⟩ | new, after⟩
  · have hsame : after = models := hclean models _ _ hx
    rw [hsame]
    exact hkeyed
  · obtain rfl := hok new after hx
    intro appId model hget
    rw [Dict.get?_set] at hget
    split at hget
    next heq =>
      cases hget
      exact heq.symm
    next => exact hkeyed appId model hget

theorem validate_stores (h : builder.validate appId actorRole corrections models = (.ok new, after)) :
    after = models.set new.content.appId new := by
  obtain ⟨_, _, -, -, -, rfl, rfl⟩ := validate_eq_ok.mp h
  rfl

theorem sign_stores (hkeyed : models.Keyed)
    (h : builder.sign appId actorRole models = (.ok new, after)) :
    after = models.set new.content.appId new := by
  obtain ⟨current, signature, -, hget, -, -, rfl, rfl⟩ := sign_eq_ok.mp h
  rw [AppModelRecord.content_withSignature, hkeyed appId current hget]

end Calls

end ModelBuilder

end SecOpent
