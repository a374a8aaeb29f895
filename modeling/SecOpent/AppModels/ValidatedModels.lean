import Mathlib.Logic.Function.Basic
import SecOpent.AppModels.Service
import SecOpent.Transition.Conditions

/-!
# Models that a human validated

What a human signs should be what a human validated. The runs here carry, beside the registry, the
content that each key held when a human last validated it. `update` edits a validated model and leaves
it validated, and `create` and `createProposed` write over a signed one.

## Main definitions

* `ValidatedModels`: the registry, and what was validated
* `SignedValidated`: the signed models are what a human validated
* `ReplacesSigned`, `SignsEdited`: the calls that go wrong

## Main results

* `signed_persists_iff`: exactly when signed models stay as they are
* `signed_validated_iff`: exactly when humans validated what is signed
* `validated_signed_iff`: exactly when both hold
* `not_signsEdited_of_kept`: as long as no update changes a validated model, no edited model is signed
-/

namespace SecOpent

open Python Transition

/-- The registry, and the content under each key when a human last validated it. -/
structure ValidatedModels where
  registry : AppModelRegistry
  validated : ModelKey → Option AppModelContent

namespace ValidatedModels

/-- Nothing is stored. -/
def empty : ValidatedModels := ⟨.empty, fun _ => none⟩

/-- What was validated after a call that returned a model. -/
def validatedAfter (validated : ModelKey → Option AppModelContent) :
    AppModelAction → AppModelRecord → ModelKey → Option AppModelContent
  | .validate _ _ _, model => Function.update validated model.key (some model.content)
  | _, _ => validated

/-- An operation as a step. -/
def step (service : AppModelService) (state : ValidatedModels) (action : AppModelAction) :
    Option ValidatedModels :=
  match action.call service state.registry with
  | (.ok model, registry) => some ⟨registry, validatedAfter state.validated action model⟩
  | (.error _, registry) => some ⟨registry, state.validated⟩

/-- A signed model has the content that a human last validated under its key. -/
def SignedValidated (state : ValidatedModels) : Prop :=
  ∀ key model, state.registry.get? key = some model → model.status = .signed →
    state.validated key = some model.content

/-- The call creates a model under the key of a signed one. -/
def ReplacesSigned (state : ValidatedModels) : AppModelAction → Prop
  | .create model _ | .createProposed model =>
    ∃ old, state.registry.get? model.key = some old ∧ old.status = .signed
  | _ => False

/-- A human signs a validated model that was edited since it was validated. -/
def SignsEdited (state : ValidatedModels) : AppModelAction → Prop
  | .sign appId version signer actorRole =>
    ∃ old, state.registry.get? (appId, version) = some old ∧ old.status = .humanValidated ∧
      actorRole = "human" ∧ (∃ signature, signer old.digest = .ok signature) ∧
      state.validated (appId, version) ≠ some old.content
  | _ => False

/-- The call edits a validated model. -/
def EditsValidated (state : ValidatedModels) : AppModelAction → Prop
  | .update content =>
    ∃ old, state.registry.get? (content.appId, content.version) = some old ∧
      old.status = .humanValidated ∧ old.content ≠ content
  | _ => False

/-! ## What a step does -/

section Steps

variable {service : AppModelService} {state next : ValidatedModels} {action : AppModelAction}
  {key : ModelKey} {model new : AppModelRecord}

/-- A step stores one model, or does nothing. -/
theorem step_cases (h : step service state action = some next) :
    next = state ∨ ∃ new, action.Writes service state.registry new ∧
      next = ⟨state.registry.put new, validatedAfter state.validated action new⟩ := by
  unfold step at h
  rcases action.call_cases service state.registry with ⟨error, hcall⟩ | ⟨new, hwrites, hcall⟩
  · rw [hcall] at h
    cases h
    exact .inl rfl
  · rw [hcall] at h
    cases h
    exact .inr ⟨new, hwrites, rfl⟩

theorem step_of_call {registry : AppModelRegistry}
    (h : action.call service state.registry = (.ok new, registry)) :
    step service state action = some ⟨registry, validatedAfter state.validated action new⟩ := by
  simp [step, h]

/-- The last validation of a key that was not written stays. -/
theorem validatedAfter_of_ne {validated : ModelKey → Option AppModelContent} (h : key ≠ new.key) :
    validatedAfter validated action new key = validated key := by
  cases action with
  | validate => exact Function.update_of_ne h _ _
  | _ => rfl

/-! ## Signed models stay -/

/-- What is written over a signed model is a model that is created. -/
theorem replacesSigned_of_writes (hget : state.registry.get? new.key = some model)
    (hsigned : model.status = .signed) (hwrites : action.Writes service state.registry new) :
    ReplacesSigned state action := by
  -- A model that is moved is the one under the key, and it is not signed.
  have hmoved : ∀ {appId version : String} {old : AppModelRecord},
      state.registry.get? (appId, version) = some old → new.key = (appId, version) →
      old.status = .signed := by
    intro appId version old hold hkey
    rw [hkey] at hget
    cases hold.symm.trans hget
    exact hsigned
  cases hwrites with
  | created created proposed => exact ⟨model, hget, hsigned⟩
  | proposed created => exact ⟨model, hget, hsigned⟩
  | updated hold hstatus =>
    rw [hmoved hold rfl] at hstatus
    rcases hstatus with hstatus | hstatus <;> cases hstatus
  | revised hnew _ _ =>
    rw [hnew] at hget
    cases hget
  | validated hold hstatus =>
    have hkey := AppModelRegistry.key_of_get? hold
    rw [hmoved hold hkey] at hstatus
    rcases hstatus with hstatus | hstatus <;> cases hstatus
  | signed hold hstatus _ =>
    have hkey := AppModelRegistry.key_of_get? hold
    rw [hmoved hold hkey] at hstatus
    cases hstatus

/-- A step keeps the signed models exactly if it creates none of them again. -/
theorem preserves_signed_iff (service : AppModelService) (state : ValidatedModels)
    (action : AppModelAction) :
    (∀ key model, model.status = .signed →
      Preserves (step service) (fun state => state.registry.get? key = some model)
        (fun _ _ => True) state action) ↔ ¬ReplacesSigned state action := by
  constructor
  · intro h hreplaces
    -- Both calls leave a model that is not signed.
    have hcontra : ∀ (new old : AppModelRecord) (validated : ModelKey → Option AppModelContent),
        state.registry.get? new.key = some old → old.status = .signed → new.status ≠ .signed →
        step service state action = some ⟨state.registry.put new, validated⟩ → False := by
      intro new old validated hget hsigned hstatus hstep
      have hkept := h new.key old hsigned hget trivial _ hstep
      simp only [AppModelRegistry.get?_put, if_pos, Option.some.injEq] at hkept
      rw [hkept] at hstatus
      exact hstatus hsigned
    cases action with
    | create model proposed =>
      obtain ⟨old, hget, hsigned⟩ := hreplaces
      refine hcontra (model.moved (if proposed then .llmProposed else .draft)) old _ hget hsigned ?_ rfl
      cases proposed <;> exact nofun
    | createProposed model =>
      obtain ⟨old, hget, hsigned⟩ := hreplaces
      exact hcontra (model.moved .llmProposed) old _ hget hsigned nofun rfl
    | _ => cases hreplaces
  · intro h key model hsigned hget _ next hstep
    rcases step_cases hstep with rfl | ⟨new, hwrites, rfl⟩
    · exact hget
    · rw [AppModelRegistry.get?_put, if_neg]
      · exact hget
      · rintro rfl
        exact h (replacesSigned_of_writes hget hsigned hwrites)

/-- **Signed models stay as they are** exactly if no call creates a model over one. -/
theorem signed_persists_iff {actions : List AppModelAction} :
    (∀ key model, model.status = .signed →
      Persists (step service) (fun state => state.registry.get? key = some model)
        (fun _ _ => True) state actions) ↔
      runMeets (step service) (fun state action => ¬ReplacesSigned state action) state actions := by
  simp only [persists_iff]
  rw [← runMeets_congr fun state action => preserves_signed_iff service state action]
  simp only [runMeets_forall]

/-! ## Signed models were validated -/

/-- Storing a model keeps the others what a human validated. -/
theorem signedValidated_put_iff (hvalidated : SignedValidated state) :
    SignedValidated ⟨state.registry.put new, validatedAfter state.validated action new⟩ ↔
      (new.status = .signed →
        validatedAfter state.validated action new new.key = some new.content) := by
  constructor
  · intro h
    exact h new.key new (by simp)
  · intro h key model hget hsigned
    simp only [AppModelRegistry.get?_put] at hget
    split at hget
    next heq =>
      cases hget
      rw [heq]
      exact h hsigned
    next hne => exact (validatedAfter_of_ne hne).trans (hvalidated key model hget hsigned)

/-- A model that an operation stores is signed only by `sign`. -/
theorem signed_of_writes (hwrites : action.Writes service state.registry new)
    (hsigned : new.status = .signed) :
    ∃ appId version signer signature old, action = .sign appId version signer "human" ∧
      state.registry.get? (appId, version) = some old ∧ old.status = .humanValidated ∧
      signer old.digest = .ok signature ∧ new = old.withSignature signature := by
  cases hwrites with
  | created model proposed => cases proposed <;> cases hsigned
  | proposed model => cases hsigned
  | updated hold hstatus =>
    rcases hstatus with hstatus | hstatus <;> cases hstatus.symm.trans hsigned
  | revised _ hdraft _ => cases hdraft.symm.trans hsigned
  | validated _ _ => cases hsigned
  | signed hold hstatus hsigner => exact ⟨_, _, _, _, _, rfl, hold, hstatus, hsigner, rfl⟩

/-- A step leaves signed models that were validated exactly if it signs no edited one. -/
theorem signedValidated_step_iff (hvalidated : SignedValidated state) :
    (∀ next, step service state action = some next → SignedValidated next) ↔
      ¬SignsEdited state action := by
  constructor
  · intro h hedited
    cases action with
    | sign appId version signer actorRole =>
      obtain ⟨old, hget, hstatus, rfl, ⟨signature, hsigner⟩, hne⟩ := hedited
      have hcall : service.sign appId version signer "human" state.registry =
          (.ok (old.withSignature signature), state.registry.put (old.withSignature signature)) :=
        AppModelService.sign_eq_ok.mpr ⟨old, signature, rfl, hget, hstatus, hsigner, rfl, rfl⟩
      have hstep : step service state (.sign appId version signer "human") = some _ :=
        step_of_call hcall
      have hnext := h _ hstep
      have hsigned := (signedValidated_put_iff hvalidated).mp hnext rfl
      rw [AppModelRecord.key_withSignature, AppModelRegistry.key_of_get? hget] at hsigned
      exact hne hsigned
    | _ => cases hedited
  · intro h next hstep
    rcases step_cases hstep with rfl | ⟨new, hwrites, rfl⟩
    · exact hvalidated
    · refine (signedValidated_put_iff hvalidated).mpr fun hsigned => ?_
      obtain ⟨appId, version, signer, signature, old, rfl, hget, hstatus, hsigner, rfl⟩ :=
        signed_of_writes hwrites hsigned
      rw [AppModelRecord.key_withSignature, AppModelRegistry.key_of_get? hget]
      by_contra hne
      exact h ⟨old, hget, hstatus, rfl, ⟨signature, hsigner⟩, hne⟩

/-- **Humans validated what is signed** exactly if no human signs an edited model. -/
theorem signed_validated_iff {actions : List AppModelAction} (hvalidated : SignedValidated state) :
    Always (step service) SignedValidated state actions ↔
      runMeets (step service) (fun state action => ¬SignsEdited state action) state actions :=
  always_iff (fun _ => True) (fun _ _ _ _ _ => trivial)
    (fun _ _ _ hvalidated => signedValidated_step_iff hvalidated) trivial hvalidated

theorem signedValidated_empty : SignedValidated empty := nofun

/-- The validated models have the content that a human validated. -/
def ValidatedKept (state : ValidatedModels) : Prop :=
  ∀ key model, state.registry.get? key = some model → model.status = .humanValidated →
    state.validated key = some model.content

theorem validatedKept_step (hkept : ValidatedKept state) (hedits : ¬EditsValidated state action)
    (hstep : step service state action = some next) : ValidatedKept next := by
  rcases step_cases hstep with rfl | ⟨new, hwrites, rfl⟩
  · exact hkept
  · intro key model hget hstatus
    simp only [AppModelRegistry.get?_put] at hget
    split at hget
    next heq =>
      cases hget
      subst heq
      cases hwrites with
      | created model proposed => cases proposed <;> cases hstatus
      | proposed model => cases hstatus
      | revised _ hdraft _ => cases hdraft.symm.trans hstatus
      | signed _ _ _ => cases hstatus
      | validated hold _ => exact Function.update_self _ _ _
      | @updated content old hold _ =>
        have hsame : old.content = content := by
          by_contra hne
          exact hedits ⟨old, hold, hstatus, hne⟩
        exact (hkept _ old hold hstatus).trans (congrArg some hsame)
    next hne => exact (validatedAfter_of_ne hne).trans (hkept key model hget hstatus)

/-- **As long as no update changes a validated model**, no edited model is signed. -/
theorem not_signsEdited_of_kept {actions : List AppModelAction} (hkept : ValidatedKept state)
    (h : runMeets (step service) (fun state action => ¬EditsValidated state action) state actions) :
    runMeets (step service) (fun state action => ¬SignsEdited state action) state actions := by
  induction actions generalizing state with
  | nil => trivial
  | cons action actions ih =>
    refine ⟨fun hedited => ?_, fun next hstep => ?_⟩
    · cases action with
      | sign appId version signer actorRole =>
        obtain ⟨old, hget, hstatus, -, -, hne⟩ := hedited
        exact hne (hkept _ old hget hstatus)
      | _ => cases hedited
    · exact ih (validatedKept_step hkept h.1 hstep) (h.2 next hstep)

/-- **Human validation covers what is signed**, in every run, exactly if no call creates a model over a
signed one, and no human signs a model that was edited since it was validated. -/
theorem validated_signed_iff (service : AppModelService) (actions : List AppModelAction) :
    ((∀ key model, model.status = .signed →
        Persists (step service) (fun state => state.registry.get? key = some model)
          (fun _ _ => True) empty actions) ∧
      Always (step service) SignedValidated empty actions) ↔
    runMeets (step service)
      (fun state action => ¬ReplacesSigned state action ∧ ¬SignsEdited state action)
      empty actions := by
  rw [signed_persists_iff, signed_validated_iff signedValidated_empty, runMeets_and]

end Steps

end ValidatedModels

/-- A model of a clinic with these states after `default`. -/
def clinicContent (states : List String) : AppModelContent where
  appId := "clinic"
  version := "2.0"
  states := "default" :: states
  appId_ne := by decide
  version_ne := by decide
  states_ne := List.cons_ne_nil _ _

/-- A digest that tells the states apart. -/
def statesDigest : ContentDigest where
  digest content := "states:" ++ ",".intercalate content.states
  digest_ne content := by simp

/-- A service on ASCII texts. -/
def asciiModels : AppModelService := ⟨statesDigest, .ascii, id⟩

/-- A human validates a model, it is edited in place, the human signs it, and a proposed model replaces
the signed one. -/
def editedAndReplaced : List AppModelAction :=
  [.create (.construct statesDigest (clinicContent []) .draft) false,
    .validate "clinic" "2.0" "human", .update (clinicContent ["paid"]),
    .sign "clinic" "2.0" (fun digest => .ok ("signed " ++ digest)) "human",
    .createProposed (.construct statesDigest (clinicContent ["refunded"]) .draft)]

/-- After some calls: the status and the states of the model, and the states that a human validated. -/
def clinicStates (actions : List AppModelAction) :
    Option (AppModelStatus × List String × Option (List String)) := do
  let state ← runLabels (ValidatedModels.step asciiModels) .empty actions
  let model ← state.registry.get? ("clinic", "2.0")
  pure (model.status, model.content.states, (state.validated model.key).map (·.states))

theorem of_clinicStates {actions : List AppModelAction} {status : AppModelStatus}
    {states : List String} {validated : Option (List String)}
    (h : clinicStates actions = some (status, states, validated)) :
    ∃ state model, runLabels (ValidatedModels.step asciiModels) .empty actions = some state ∧
      state.registry.get? ("clinic", "2.0") = some model ∧ model.status = status ∧
      model.content.states = states ∧
      (state.validated ("clinic", "2.0")).map (·.states) = validated := by
  obtain ⟨state, hrun, h⟩ := Option.bind_eq_some_iff.mp h
  obtain ⟨model, hget, h⟩ := Option.bind_eq_some_iff.mp h
  have hkey := AppModelRegistry.key_of_get? hget
  cases h
  exact ⟨state, model, hrun, hget, rfl, rfl, by rw [hkey]⟩

/-- The signed model has a state that no human validated, and the next call takes it away. -/
theorem edited_model_signed_and_replaced :
    (¬∀ key model, model.status = .signed →
        Persists (ValidatedModels.step asciiModels)
          (fun state => state.registry.get? key = some model) (fun _ _ => True) .empty
          editedAndReplaced) ∧
      ¬Always (ValidatedModels.step asciiModels) ValidatedModels.SignedValidated .empty
        editedAndReplaced := by
  have hsigned : clinicStates (editedAndReplaced.take 4) =
      some (.signed, ["default", "paid"], some ["default"]) := by decide +kernel
  have hreplaced : (clinicStates editedAndReplaced).map (·.1) = some .llmProposed := by
    decide +kernel
  obtain ⟨state, model, hrun, hget, hstatus, hstates, hvalidated⟩ := of_clinicStates hsigned
  constructor
  · intro h
    obtain ⟨⟨status, states, validated⟩, hafter, hproposed⟩ := Option.map_eq_some_iff.mp hreplaced
    obtain ⟨final, new, hfinal, hnew, hnewstatus, -, -⟩ := of_clinicStates hafter
    have hlast : runLabels (ValidatedModels.step asciiModels) state (editedAndReplaced.drop 4) =
        some final := by
      rw [← List.take_append_drop 4 editedAndReplaced, runLabels_append, hrun] at hfinal
      exact hfinal
    have hkept := h ("clinic", "2.0") model hstatus (editedAndReplaced.take 4)
      (editedAndReplaced.drop 4) [] state final rfl hrun hget
      (runMeets_of_forall (fun _ _ _ => trivial)) hlast
    cases hnew.symm.trans hkept
    cases hstatus.symm.trans (hnewstatus.trans hproposed)
  · intro h
    have hcovered := h (editedAndReplaced.take 4) (editedAndReplaced.drop 4) state rfl hrun _ model
      hget hstatus
    rw [hcovered, Option.map_some, hstates] at hvalidated
    exact absurd hvalidated (by decide)


end SecOpent
