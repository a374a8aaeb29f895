import SecOpent.AppModels.Builder
import SecOpent.AppModels.ValidatedModels
import SecOpent.Transition.Conditions

/-!
# What the digest of a model describes

The registry of the service and the models of the builder, with every call that stores a model. A
signature covers the digest only, so it says something about a model as long as the digest is the one of
its content. Two calls copy a model with another content and keep its digest.

## Main definitions

* `ModelStores`: both stores
* `ModelAction`: the calls on them
* `ModelAction.KeepsDigest`: the condition on a call

## Main results

* `described_step_iff`: exactly when a call leaves models that their digests describe
* `digests_describe_iff`: exactly when all models of a run are described, and a signature covers one
  content
-/

namespace SecOpent

open Python Transition

/-- The registry of the service, and the models of the builder. -/
structure ModelStores where
  registry : AppModelRegistry
  models : BuilderModels

/-- What the models come from: the import endpoint over the service, and the builder, which construct
with one digest. -/
structure ModelSources extends AppModelImports where
  builderImporters : Dict String ModelImporter
  builderSigner : Option ModelSigner

namespace ModelSources

/-- The builder. -/
def builder (sources : ModelSources) : ModelBuilder where
  digest := sources.digest
  importers := sources.builderImporters
  signer := sources.builderSigner
  repr := sources.repr

end ModelSources

/-- A call that stores a model. -/
inductive ModelAction
  | service (action : AppModelAction)
  | importAppModel (sourceType : String) (spec : Dict String Json) (useLlm : Bool)
      (gateway : RemoteModelGateway)
  | importModel (sourceType : String) (data : Dict String Json)
  | registerProposed (model : AppModelRecord)
  | validate (appId actorRole : String) (corrections : Option AppModelRecord)
  | sign (appId actorRole : String)

namespace ModelStores

/-- Nothing is stored. -/
def empty : ModelStores := ⟨.empty, .empty⟩

/-- A model in one of the stores. -/
inductive Holds (stores : ModelStores) (model : AppModelRecord) : Prop
  | registry (key : ModelKey) (h : stores.registry.get? key = some model)
  | builder (appId : String) (h : stores.models.get? appId = some model)

/-- The digests are those of the contents. -/
def Described (H : ContentDigest) (stores : ModelStores) : Prop :=
  ∀ model, stores.Holds model → model.Described H

/-- Two signed models whose signed bytes agree have the same content. -/
def SignedCovers (stores : ModelStores) : Prop :=
  ∀ model model', stores.Holds model → stores.Holds model' → model.status = .signed →
    model'.status = .signed → model.digest = model'.digest → model.content = model'.content

/-- A call as a step. -/
def step (sources : ModelSources) (stores : ModelStores) : ModelAction → Option ModelStores
  | .service action =>
    some { stores with registry := (action.call sources.toAppModelService stores.registry).2 }
  | .importAppModel sourceType spec useLlm gateway =>
    some { stores with
      registry := (sources.importAppModel sourceType spec useLlm gateway stores.registry).2 }
  | .importModel sourceType data =>
    some { stores with models := (sources.builder.importModel sourceType data stores.models).2 }
  | .registerProposed model =>
    some { stores with models := (ModelBuilder.registerProposed model stores.models).2 }
  | .validate appId actorRole corrections =>
    some { stores with
      models := (sources.builder.validate appId actorRole corrections stores.models).2 }
  | .sign appId actorRole =>
    some { stores with models := (sources.builder.sign appId actorRole stores.models).2 }

/-- The condition on a call: a model that is handed in comes with the digest of its content, what a
language model proposes has the digest of the draft, and the corrections of a human have, under the name
of the application, the digest that they come with. -/
def KeepsDigest (sources : ModelSources) (stores : ModelStores) : ModelAction → Prop
  | .service (.create model _) | .service (.createProposed model) | .registerProposed model =>
    model.Described sources.digest
  | .importAppModel sourceType spec useLlm gateway =>
    useLlm = true → ∀ importer draft proposed, sources.importers sourceType = some importer →
      importer spec = .ok draft → sources.proposedContent gateway draft = .ok proposed →
      sources.digest draft = sources.digest proposed
  | .validate appId actorRole (some corrections) =>
    actorRole = "human" → ∀ current, stores.models.get? appId = some current →
      current.status = .draft ∨ current.status = .llmProposed → ∀ h : appId ≠ "",
      corrections.digest = sources.digest (corrections.content.readdressed appId h)
  | _ => True

/-! ## One call -/

section Steps

variable {sources : ModelSources} {stores : ModelStores} {action : ModelAction}
  {new model : AppModelRecord} {H : ContentDigest}

/-- Storing a model in the registry keeps the others described. -/
theorem described_put_iff (h : stores.Described H) :
    ModelStores.Described H { stores with registry := stores.registry.put new } ↔
      new.Described H := by
  constructor
  · intro hput
    exact hput new (.registry new.key (by simp))
  · intro hnew model hholds
    rcases hholds with ⟨key, hget⟩ | ⟨appId, hget⟩
    · simp only [AppModelRegistry.get?_put] at hget
      split at hget
      · cases hget
        exact hnew
      · exact h model (.registry key hget)
    · exact h model (.builder appId hget)

/-- Storing a model in the builder keeps the others described. -/
theorem described_set_iff {appId : String} (h : stores.Described H) :
    ModelStores.Described H { stores with models := stores.models.set appId new } ↔
      new.Described H := by
  constructor
  · intro hset
    exact hset new (.builder appId (by simp))
  · intro hnew model hholds
    rcases hholds with ⟨key, hget⟩ | ⟨appId', hget⟩
    · exact h model (.registry key hget)
    · rw [Dict.get?_set] at hget
      split at hget
      · cases hget
        exact hnew
      · exact h model (.builder appId' hget)

/-- A call on the registry leaves it described exactly if it returns a model that is. -/
theorem described_registry_iff {x : AppModelCall} (h : stores.Described H) (hclean : x.Clean)
    (hok : ∀ new after, x stores.registry = (.ok new, after) → after = stores.registry.put new) :
    ModelStores.Described H { stores with registry := (x stores.registry).2 } ↔
      ∀ new after, x stores.registry = (.ok new, after) → new.Described H := by
  refine hclean.holds_iff (P := fun registry => ModelStores.Described H { stores with registry }) h ?_
  intro new after heq
  rw [hok new after heq]
  exact described_put_iff h

/-- A call on the builder leaves it described exactly if it returns a model that is. -/
theorem described_builder_iff {x : BuilderCall} (h : stores.Described H) (hclean : x.Clean)
    (hok : ∀ new after, x stores.models = (.ok new, after) →
      ∃ appId, after = stores.models.set appId new) :
    ModelStores.Described H { stores with models := (x stores.models).2 } ↔
      ∀ new after, x stores.models = (.ok new, after) → new.Described H := by
  refine hclean.holds_iff (P := fun models => ModelStores.Described H { stores with models }) h ?_
  intro new after heq
  obtain ⟨appId, rfl⟩ := hok new after heq
  exact described_set_iff h

/-- The operations of the service keep models described, if they are created so. -/
theorem described_service_iff {action : AppModelAction} (h : stores.Described sources.digest) :
    (∀ new after, action.call sources.toAppModelService stores.registry = (.ok new, after) →
      new.Described sources.digest) ↔ KeepsDigest sources stores (.service action) := by
  cases action with
  | create model proposed =>
    constructor
    · intro hall
      exact hall (model.moved (if proposed then .llmProposed else .draft)) _ rfl
    · rintro hmodel new after heq
      cases heq
      exact hmodel
  | createProposed model =>
    constructor
    · intro hall
      exact hall (model.moved .llmProposed) _ rfl
    · rintro hmodel new after heq
      cases heq
      exact hmodel
  | update content =>
    refine iff_of_true (fun new after heq => ?_) trivial
    obtain ⟨old, -, -, rfl, -⟩ := AppModelService.update_eq_ok.mp heq
    rfl
  | revise content newVersion =>
    refine iff_of_true (fun new after heq => ?_) trivial
    exact (AppModelService.revise_eq_ok heq).2.2.1
  | validate appId version actorRole =>
    refine iff_of_true (fun new after heq => ?_) trivial
    obtain ⟨old, -, hget, -, rfl, -⟩ := AppModelService.validate_eq_ok.mp heq
    exact h old (.registry _ hget)
  | sign appId version signer actorRole =>
    refine iff_of_true (fun new after heq => ?_) trivial
    obtain ⟨old, signature, -, hget, -, -, rfl, -⟩ := AppModelService.sign_eq_ok.mp heq
    exact h old (.registry _ hget)

/-- An import keeps the digest exactly if the language model proposes nothing with another one. -/
theorem described_import_iff {sourceType : String} {spec : Dict String Json} {useLlm : Bool}
    {gateway : RemoteModelGateway} :
    (∀ new after, sources.importAppModel sourceType spec useLlm gateway stores.registry =
      (.ok new, after) → new.Described sources.digest) ↔
      KeepsDigest sources stores (.importAppModel sourceType spec useLlm gateway) := by
  simp only [AppModelImports.importAppModel_eq_ok]
  constructor
  · rintro hall hllm importer draft proposed himporter hdraft hproposed
    exact hall _ _ ⟨importer, draft, himporter, hdraft, rfl, .inr ⟨hllm, proposed, hproposed, rfl⟩⟩
  · rintro hkeeps new after ⟨importer, draft, himporter, hdraft, -, ⟨-, rfl⟩ |
      ⟨hllm, proposed, hproposed, rfl⟩⟩
    · rfl
    · exact hkeeps hllm importer draft proposed himporter hdraft hproposed

/-- A validation keeps the digest exactly if it is the one of the corrections. -/
theorem described_validate_iff {appId actorRole : String} {corrections : Option AppModelRecord}
    (hkeyed : stores.models.Keyed) (h : stores.Described sources.digest) :
    (∀ new after, sources.builder.validate appId actorRole corrections stores.models =
      (.ok new, after) → new.Described sources.digest) ↔
      KeepsDigest sources stores (.validate appId actorRole corrections) := by
  simp only [ModelBuilder.validate_eq_ok]
  cases corrections with
  | none =>
    refine iff_of_true ?_ trivial
    rintro new after ⟨current, hne, -, hget, -, rfl, -⟩
    -- The model is stored under its own application, so its content stays what it is.
    have hname : current.content.readdressed appId hne = current.content := by
      unfold AppModelContent.readdressed
      congr
      exact (hkeyed appId current hget).symm
    have hdescribed := h current (.builder appId hget)
    rw [AppModelRecord.Described, ← hname] at hdescribed
    exact hdescribed
  | some corrections =>
    constructor
    · rintro hall hhuman current hget hstatus hne
      exact hall _ _ ⟨current, hne, hhuman, hget, hstatus, rfl, rfl⟩
    · rintro hkeeps new after ⟨current, hne, hhuman, hget, hstatus, rfl, -⟩
      exact hkeeps hhuman current hget hstatus hne

/-- **A call leaves models that their digests describe** exactly if it meets the condition. -/
theorem described_step_iff (hkeyed : stores.models.Keyed) (h : stores.Described sources.digest) :
    (∀ next, step sources stores action = some next → next.Described sources.digest) ↔
      KeepsDigest sources stores action := by
  have hsome : ∀ after : ModelStores, step sources stores action = some after →
      ((∀ next, step sources stores action = some next → next.Described sources.digest) ↔
        after.Described sources.digest) := by
    intro after hstep
    rw [hstep]
    simp only [Option.some.injEq, forall_eq']
  cases action with
  | service action =>
    rw [hsome _ rfl, ← described_service_iff h]
    exact described_registry_iff h AppModelAction.call_clean fun new after heq =>
      AppModelAction.call_stores heq
  | importAppModel sourceType spec useLlm gateway =>
    rw [hsome _ rfl, ← described_import_iff]
    refine described_registry_iff h AppModelImports.importAppModel_clean fun new after heq => ?_
    obtain ⟨_, _, _, _, hafter, _⟩ := AppModelImports.importAppModel_eq_ok.mp heq
    exact hafter
  | importModel sourceType data =>
    rw [hsome _ rfl, described_builder_iff h ModelBuilder.importModel_clean]
    · refine iff_of_true (fun new after heq => ?_) trivial
      obtain ⟨content, rfl, -⟩ := ModelBuilder.importModel_eq_ok heq
      rfl
    · intro new after heq
      obtain ⟨content, -, hafter⟩ := ModelBuilder.importModel_eq_ok heq
      exact ⟨_, hafter⟩
  | registerProposed model => exact (hsome _ rfl).trans (described_set_iff h)
  | validate appId actorRole corrections =>
    rw [hsome _ rfl, ← described_validate_iff hkeyed h]
    exact described_builder_iff h ModelBuilder.validate_clean fun new after heq =>
      ⟨_, ModelBuilder.validate_stores heq⟩
  | sign appId actorRole =>
    rw [hsome _ rfl, described_builder_iff h ModelBuilder.sign_clean]
    · refine iff_of_true (fun new after heq => ?_) trivial
      obtain ⟨current, signature, -, hget, -, -, rfl, -⟩ := ModelBuilder.sign_eq_ok.mp heq
      exact h current (.builder appId hget)
    · intro new after heq
      exact ⟨_, ModelBuilder.sign_stores hkeyed heq⟩

theorem keyed_step {next : ModelStores} (hkeyed : stores.models.Keyed)
    (hstep : step sources stores action = some next) : next.models.Keyed := by
  cases action with
  | service action =>
    cases hstep
    exact hkeyed
  | importAppModel sourceType spec useLlm gateway =>
    cases hstep
    exact hkeyed
  | importModel sourceType data =>
    cases hstep
    refine ModelBuilder.keyed_of_clean hkeyed ModelBuilder.importModel_clean fun new after heq => ?_
    obtain ⟨content, rfl, hafter⟩ := ModelBuilder.importModel_eq_ok heq
    exact hafter
  | registerProposed model =>
    cases hstep
    refine ModelBuilder.keyed_of_clean hkeyed ModelBuilder.store_clean fun new after heq => ?_
    cases heq
    rfl
  | validate appId actorRole corrections =>
    cases hstep
    exact ModelBuilder.keyed_of_clean hkeyed ModelBuilder.validate_clean fun new after heq =>
      ModelBuilder.validate_stores heq
  | sign appId actorRole =>
    cases hstep
    exact ModelBuilder.keyed_of_clean hkeyed ModelBuilder.sign_clean fun new after heq =>
      ModelBuilder.sign_stores hkeyed heq

/-! ## All runs -/

theorem keyed_empty : empty.models.Keyed := by
  intro appId model hget
  cases hget

theorem described_empty : ModelStores.Described H empty := by
  rintro model (⟨key, hget⟩ | ⟨appId, hget⟩) <;> cases hget

/-- An injective digest that describes the models tells signed contents apart. -/
theorem signedCovers_of_described (hinjective : Function.Injective H.digest)
    (h : stores.Described H) : stores.SignedCovers := by
  intro model model' hholds hholds' _ _ hdigest
  rw [h model hholds, h model' hholds'] at hdigest
  exact hinjective hdigest

/-- **The digest of a model describes its content** in every run, so that a signature covers one
content, exactly if every call meets the condition. -/
theorem digests_describe_iff (sources : ModelSources) (actions : List ModelAction) :
    (Always (step sources) (Described sources.digest) empty actions ∧
      (Function.Injective sources.digest.digest →
        Always (step sources) SignedCovers empty actions)) ↔
      runMeets (step sources) (KeepsDigest sources) empty actions := by
  rw [← always_iff (fun stores => stores.models.Keyed) (P := Described sources.digest)
    (fun _ _ _ hkeyed hstep => keyed_step hkeyed hstep)
    (fun _ _ hkeyed h => described_step_iff hkeyed h) keyed_empty described_empty]
  refine and_iff_left_of_imp fun h hinjective before after t hlabels hrun => ?_
  exact signedCovers_of_described hinjective (h before after t hlabels hrun)

end Steps

end ModelStores

/-- An import of the clinic, with a language model that proposes the state `paid`. -/
def clinicSources : ModelSources where
  toAppModelService := asciiModels
  loads _ := some (.object [("states", .list [.text "default", .text "paid"])])
  reprJson _ := []
  importers _ := some fun _ => .ok (clinicContent [])
  builderImporters := ⟨[("openapi", fun _ => .ok (clinicContent []))], List.nodup_singleton _⟩
  builderSigner := some fun digest => .ok ("signed " ++ digest)

/-- The specification of a clinic without endpoints. -/
def clinicSpec : Dict String Json :=
  .ofItems [("info", .object [("title", .text "clinic"), ("version", .text "2.0")]),
    ("paths", .object [])]

/-- A human validates and signs the enriched import, and the same import into the builder. -/
def importedTwice : List ModelAction :=
  [.importAppModel "openapi" clinicSpec true fun _ => .ok "proposed states",
    .service (.validate "clinic" "2.0" "human"),
    .service (.sign "clinic" "2.0" (fun digest => .ok ("signed " ++ digest)) "human"),
    .importModel "openapi" clinicSpec, .validate "clinic" "human" none, .sign "clinic" "human"]

/-- After the calls: the status, the digest and the states of a model. -/
def describeModel (model : AppModelRecord) : AppModelStatus × String × List String :=
  (model.status, model.digest, model.content.states)

/-- The two signatures are over the same bytes, and one of the models has a state that its digest does
not describe. -/
theorem enriched_import_undescribed :
    ¬Always (ModelStores.step clinicSources) (ModelStores.Described statesDigest) .empty importedTwice ∧
      ¬Always (ModelStores.step clinicSources) ModelStores.SignedCovers .empty importedTwice := by
  have hregistry : ((runLabels (ModelStores.step clinicSources) .empty importedTwice).bind fun stores =>
      (stores.registry.get? ("clinic", "2.0")).map describeModel) =
        some (.signed, "states:default", ["default", "paid"]) := by decide +kernel
  have hbuilder : ((runLabels (ModelStores.step clinicSources) .empty importedTwice).bind fun stores =>
      (stores.models.get? "clinic").map describeModel) =
        some (.signed, "states:default", ["default"]) := by decide +kernel
  obtain ⟨stores, hrun, hregistry⟩ := Option.bind_eq_some_iff.mp hregistry
  rw [hrun] at hbuilder
  obtain ⟨enriched, hget, henriched⟩ := Option.map_eq_some_iff.mp hregistry
  obtain ⟨plain, hget', hplain⟩ := Option.map_eq_some_iff.mp hbuilder
  simp only [describeModel, Prod.mk.injEq] at henriched hplain
  constructor
  · intro h
    have hdescribed := h importedTwice [] stores rfl hrun enriched (.registry _ hget)
    have hstates : statesDigest enriched.content = "states:default,paid" := by
      change "states:" ++ ",".intercalate enriched.content.states = _
      rw [henriched.2.2]
      decide +kernel
    rw [AppModelRecord.Described, hstates, henriched.2.1] at hdescribed
    exact absurd hdescribed (by decide)
  · intro h
    have hsame := h importedTwice [] stores rfl hrun enriched plain (.registry _ hget)
      (.builder _ hget') henriched.1 hplain.1 (henriched.2.1.trans hplain.2.1.symm)
    have hstates := congrArg AppModelContent.states hsame
    rw [henriched.2.2, hplain.2.2] at hstates
    exact absurd hstates (by decide)

end SecOpent
