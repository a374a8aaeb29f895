import SecOpent.Cases.Generation

/-!
# Application models

`domain/appmodel/models.py`, with all of its fields: the content of a model, which its digest is to
cover, and what the lifecycle adds. The digest is computed when a model is constructed without one; a
copy with changed fields keeps the digest it was copied with.

## Main definitions

* `AppModelContent`: what `_content_payload` covers
* `AppModelRecord`: a model
* `AppModelRecord.construct`: a model constructed from its content
* `AppModelRegistry`: the models by application and version

## Main results

* `AppModelRegistry.get?_put`: writing a model changes that model only
-/

namespace SecOpent

open Python

/-! ## The content -/

/-- `Transition`. -/
structure ModelTransition extends AppModel.Transition where
  params : List String := []

/-- `_TRUSTED_SOURCES`. -/
inductive TrustedSource
  | server | client
  deriving DecidableEq, Repr

/-- `Field`. -/
structure ModelField extends AppModel.Field where
  trustedSource : TrustedSource := .client

/-- `Role`. -/
structure ModelRole where
  id : String
  capabilities : List String := []
  id_ne : id ≠ ""

/-- `_content_payload`: the content of a model. -/
structure AppModelContent where
  appId : String
  version : String
  states : List String
  transitions : List ModelTransition := []
  invariants : List AppModel.Invariant := []
  fields : List ModelField := []
  roles : List ModelRole := []
  idempotency : List (String × Bool) := []
  outOfScopeRules : List String := []
  appId_ne : appId ≠ ""
  version_ne : version ≠ ""
  states_ne : states ≠ []

/-- `canonical_digest`, of a content. -/
structure ContentDigest where
  digest : AppModelContent → String
  digest_ne : ∀ content, digest content ≠ ""

instance : CoeFun ContentDigest fun _ => AppModelContent → String := ⟨ContentDigest.digest⟩

/-- `AppModel`. -/
structure AppModelRecord where
  content : AppModelContent
  status : AppModelStatus := .draft
  digest : String
  signature : Option String := none
  digest_ne : digest ≠ ""

/-- The application and the version. -/
abbrev ModelKey := String × String

namespace AppModelRecord

/-- The key under which the model is stored. -/
def key (model : AppModelRecord) : ModelKey := (model.content.appId, model.content.version)

/-- `AppModel(…)` without a digest, which `__post_init__` computes. -/
def construct (H : ContentDigest) (content : AppModelContent) (status : AppModelStatus) :
    AppModelRecord :=
  { content, status, digest := H content, digest_ne := H.digest_ne content }

/-- `replace(model, status=…)`. -/
def moved (model : AppModelRecord) (status : AppModelStatus) : AppModelRecord :=
  { model with status }

/-- The model with a signature. -/
def withSignature (model : AppModelRecord) (signature : String) : AppModelRecord :=
  { model with status := .signed, signature := some signature }

/-- The digest is the one of the content. -/
def Described (H : ContentDigest) (model : AppModelRecord) : Prop := model.digest = H model.content

@[simp] theorem content_moved (model : AppModelRecord) (status : AppModelStatus) :
    (model.moved status).content = model.content := rfl

@[simp] theorem status_moved (model : AppModelRecord) (status : AppModelStatus) :
    (model.moved status).status = status := rfl

@[simp] theorem key_moved (model : AppModelRecord) (status : AppModelStatus) :
    (model.moved status).key = model.key := rfl

@[simp] theorem content_withSignature (model : AppModelRecord) (signature : String) :
    (model.withSignature signature).content = model.content := rfl

@[simp] theorem key_withSignature (model : AppModelRecord) (signature : String) :
    (model.withSignature signature).key = model.key := rfl

end AppModelRecord

/-! ## The registry -/

/-- An `AppModelRegistry`: a model is stored under its own key. -/
structure AppModelRegistry where
  models : Dict ModelKey AppModelRecord
  keyed : ∀ key model, models.get? key = some model → model.key = key

namespace AppModelRegistry

/-- A registry without models. -/
def empty : AppModelRegistry := ⟨.empty, by simp⟩

/-- `get`. -/
def get? (registry : AppModelRegistry) (key : ModelKey) : Option AppModelRecord :=
  registry.models.get? key

/-- `put`. -/
def put (registry : AppModelRegistry) (model : AppModelRecord) : AppModelRegistry where
  models := registry.models.set model.key model
  keyed key found h := by
    rw [Dict.get?_set] at h
    split at h
    next heq =>
      cases h
      exact heq.symm
    next => exact registry.keyed key found h

/-- The versions of an application, of `list`. -/
def versionsOf (registry : AppModelRegistry) (appId : String) : List String :=
  (registry.models.values.filter fun model => model.content.appId == appId).map fun model =>
    model.content.version

variable {registry : AppModelRegistry} {model : AppModelRecord} {key : ModelKey}

@[simp] theorem get?_put (registry : AppModelRegistry) (model : AppModelRecord) (key : ModelKey) :
    (registry.put model).get? key = if key = model.key then some model else registry.get? key :=
  Dict.get?_set _ _ _ _

theorem key_of_get? (h : registry.get? key = some model) : model.key = key :=
  registry.keyed key model h

theorem mem_versionsOf {appId version : String} :
    version ∈ registry.versionsOf appId ↔ registry.get? (appId, version) ≠ none := by
  rw [Option.ne_none_iff_exists']
  simp only [versionsOf, List.mem_map, List.mem_filter, Dict.mem_values, beq_iff_eq]
  constructor
  · rintro ⟨model, ⟨⟨key, hget⟩, rfl⟩, rfl⟩
    obtain rfl := registry.keyed key model hget
    exact ⟨model, hget⟩
  · rintro ⟨model, hget⟩
    have hkey := key_of_get? hget
    cases hkey
    exact ⟨model, ⟨⟨_, hget⟩, rfl⟩, rfl⟩

end AppModelRegistry

end SecOpent
