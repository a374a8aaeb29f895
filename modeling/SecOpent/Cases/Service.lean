import SecOpent.Cases.Models
import SecOpent.Python.Call
import SecOpent.Python.Table

/-!
# The lifecycle of cases

`CaseService` of `application/cases.py` over a registry that is keyed by the id of a case. The
transitions follow the lifecycle, and what moves a case past its review needs the role of a human;
`createDraft` writes whatever is there.

## Main definitions

* `CaseRegistry`: the cases by their id
* `CaseService`: `createDraft`, `validate`, `fastTrackModelGenerated`, `review`, `sign`, `publish`

## Main results

* `validate_eq_ok`, `fastTrack_eq_ok`, `review_eq_ok`, `sign_eq_ok`, `publish_eq_ok`: when a call
  returns, and what it writes
* `validate_clean`, `fastTrack_clean`, `review_clean`, `sign_clean`, `publish_clean`: a call that raises
  writes nothing
-/

namespace SecOpent

open Python

/-- A `CaseRegistry`: `put` writes a case under its id. -/
abbrev CaseRegistry := Table CaseDefinition CaseDefinition.id

/-- `_TRANSITIONS`. -/
def CaseStatus.transitions : CaseStatus → List CaseStatus
  | .draft => [.validated]
  | .validated => [.reviewed]
  | .reviewed => [.signed]
  | .signed => [.published]
  | _ => []

/-- The case with another status. -/
def CaseDefinition.moved (case : CaseDefinition) (status : CaseStatus) : CaseDefinition :=
  { case with status }

@[simp] theorem CaseDefinition.moved_id {case : CaseDefinition} {status : CaseStatus} :
    (case.moved status).id = case.id := rfl

@[simp] theorem CaseDefinition.moved_status {case : CaseDefinition} {status : CaseStatus} :
    (case.moved status).status = status := rfl

/-- The case with a signature. -/
def CaseDefinition.withSignature (case : CaseDefinition) (signature : String) : CaseDefinition :=
  { case with status := .signed, signature }

/-- The status that a draft from a signed model gets. -/
def CaseDefinition.trackedStatus (case : CaseDefinition) : CaseStatus :=
  if case.risk ∈ [RiskClass.passive, .low] then .reviewed else .validated

/-- `_signing_payload`, before it is encoded. -/
def signingPayload (case : CaseDefinition) : String :=
  "|".intercalate [case.id, case.version, case.risk.value, case.targetType, case.schema]

/-- A `CaseSigner`. -/
abbrev CaseSigner := String → Except String String

/-- `CaseService`, with what it reads off Python's tables: lower and upper case, and the `repr` of a
text. -/
structure CaseService where
  unicode : Unicode
  upperTable : Str → Str
  repr : String → String

namespace CaseService

variable (service : CaseService)

/-- `enforce_publish`. -/
def enforcePublish (case : CaseDefinition) : Except String Unit :=
  validateDeclaredRisk service.unicode service.upperTable case

/-- `registry.put`. -/
def put (case : CaseDefinition) : Call CaseRegistry Unit := fun registry =>
  (.ok (), registry.put case)

/-- `get`. -/
def get (caseId : String) : Call CaseRegistry CaseDefinition := fun registry =>
  match registry.get? caseId with
  | some case => (.ok case, registry)
  | none => (.error ("case not found: " ++ caseId), registry)

/-- `create_draft`. -/
def createDraft (case : CaseDefinition) : Call CaseRegistry CaseDefinition := do
  let draft := case.moved .draft
  put draft
  pure draft

/-- `_check_transition`. -/
def checkTransition (case : CaseDefinition) (toStatus : CaseStatus) : Call CaseRegistry Unit :=
  if toStatus ∈ case.status.transitions then pure ()
  else .raise ("case " ++ case.id ++ ": cannot transition " ++ case.status.value ++ " -> " ++
    toStatus.value)

/-- `_transition`. -/
def transition (case : CaseDefinition) (toStatus : CaseStatus) :
    Call CaseRegistry CaseDefinition := do
  checkTransition case toStatus
  put (case.moved toStatus)
  pure (case.moved toStatus)

/-- `validate`. -/
def validate (caseId : String) : Call CaseRegistry CaseDefinition := do
  let case ← get caseId
  .ofExcept id (service.enforcePublish case)
  transition case .validated

/-- `_require_human`. -/
def requireHuman (actorRole : String) : Call CaseRegistry Unit :=
  if actorRole = "agent" then
    .raise "agents cannot review, sign, or publish cases (human-only action)"
  else if actorRole ≠ "human" then .raise ("unknown actor role: " ++ service.repr actorRole)
  else pure ()

/-- `review`. -/
def review (caseId actorRole : String) : Call CaseRegistry CaseDefinition := do
  service.requireHuman actorRole
  let case ← get caseId
  transition case .reviewed

/-- `sign`. -/
def sign (caseId : String) (signer : CaseSigner) (actorRole : String) :
    Call CaseRegistry CaseDefinition := do
  service.requireHuman actorRole
  let case ← get caseId
  checkTransition case .signed
  let signature ← .ofExcept id (signer (signingPayload case))
  put (case.withSignature signature)
  pure (case.withSignature signature)

/-- `publish`. -/
def publish (caseId actorRole : String) : Call CaseRegistry CaseDefinition := do
  service.requireHuman actorRole
  let case ← get caseId
  transition case .published

/-- `fast_track_model_generated`. -/
def fastTrackModelGenerated (caseId : String) : Call CaseRegistry CaseDefinition := do
  let case ← get caseId
  if case.origin ≠ .modelGenerated then
    .raise ("case " ++ caseId ++ " is not model-generated (origin=" ++ case.origin.value ++ ")")
  else do
    .ofExcept id (service.enforcePublish case)
    let validated ← transition case .validated
    if case.risk ∈ [RiskClass.passive, .low] then transition validated .reviewed
    else pure validated

end CaseService

/-! ## What a call writes -/

section Writes

open CaseService

variable {service : CaseService} {registry after : CaseRegistry} {case new : CaseDefinition}
  {caseId actorRole : String} {toStatus status : CaseStatus}

theorem validated_mem_transitions : .validated ∈ status.transitions ↔ status = .draft := by
  cases status <;> simp [CaseStatus.transitions]

theorem reviewed_mem_transitions : .reviewed ∈ status.transitions ↔ status = .validated := by
  cases status <;> simp [CaseStatus.transitions]

theorem signed_mem_transitions : .signed ∈ status.transitions ↔ status = .reviewed := by
  cases status <;> simp [CaseStatus.transitions]

theorem published_mem_transitions : .published ∈ status.transitions ↔ status = .signed := by
  cases status <;> simp [CaseStatus.transitions]

theorem get_eq_ok :
    CaseService.get caseId registry = (.ok case, after) ↔
      registry.get? caseId = some case ∧ registry = after := by
  unfold CaseService.get
  cases registry.get? caseId with
  | none => simp
  | some found => simp

theorem get_silent : (CaseService.get caseId).Silent := by
  intro registry
  unfold CaseService.get
  cases registry.get? caseId with
  | none => rfl
  | some found => rfl

theorem checkTransition_eq_ok {u : Unit} :
    checkTransition case toStatus registry = (.ok u, after) ↔
      toStatus ∈ case.status.transitions ∧ registry = after := by
  unfold checkTransition
  split
  next h => simp [h]
  next h => simp [h]

theorem checkTransition_silent : (checkTransition case toStatus).Silent := by
  unfold checkTransition
  split
  · exact .pure _
  · exact .raise _

theorem transition_eq_ok :
    transition case toStatus registry = (.ok new, after) ↔
      toStatus ∈ case.status.transitions ∧ new = case.moved toStatus ∧ after = registry.put new := by
  unfold transition
  simp only [Call.bind_eq_ok, checkTransition_eq_ok]
  constructor
  · rintro ⟨_, _, ⟨hmem, rfl⟩, _, _, hput, hpure⟩
    cases hput
    cases hpure
    exact ⟨hmem, rfl, rfl⟩
  · rintro ⟨hmem, rfl, rfl⟩
    exact ⟨(), registry, ⟨hmem, rfl⟩, (), _, rfl, rfl⟩

theorem transition_clean : (transition case toStatus).Clean :=
  checkTransition_silent.bind_clean fun _ => Call.Returns.clean fun _ => ⟨_, _, rfl⟩

theorem requireHuman_eq_ok {u : Unit} :
    service.requireHuman actorRole registry = (.ok u, after) ↔
      actorRole = "human" ∧ registry = after := by
  unfold requireHuman
  split
  next h => simp [h]
  next =>
    split
    next h => simp [h]
    next h => simp [not_not.mp h]

theorem requireHuman_silent : (service.requireHuman actorRole).Silent := by
  unfold requireHuman
  split
  · exact .raise _
  · split
    · exact .raise _
    · exact .pure _

/-- A draft that passes the gate is validated. -/
theorem validate_eq_ok :
    service.validate caseId registry = (.ok new, after) ↔
      ∃ old, registry.get? caseId = some old ∧ service.enforcePublish old = .ok () ∧
        old.status = .draft ∧ new = old.moved .validated ∧ after = registry.put new := by
  unfold validate
  simp only [Call.bind_eq_ok, get_eq_ok, Call.ofExcept_eq_ok, transition_eq_ok,
    validated_mem_transitions]
  constructor
  · rintro ⟨old, _, ⟨hget, rfl⟩, _, _, ⟨hgate, rfl⟩, hwrite⟩
    exact ⟨old, hget, hgate, hwrite⟩
  · rintro ⟨old, hget, hgate, hwrite⟩
    exact ⟨old, registry, ⟨hget, rfl⟩, (), registry, ⟨hgate, rfl⟩, hwrite⟩

theorem validate_clean : (service.validate caseId).Clean :=
  get_silent.bind_clean fun _ => (Call.Silent.ofExcept _ _).bind_clean fun _ => transition_clean

/-- A human reviews a validated case. -/
theorem review_eq_ok :
    service.review caseId actorRole registry = (.ok new, after) ↔
      ∃ old, actorRole = "human" ∧ registry.get? caseId = some old ∧ old.status = .validated ∧
        new = old.moved .reviewed ∧ after = registry.put new := by
  unfold review
  simp only [Call.bind_eq_ok, requireHuman_eq_ok, get_eq_ok, transition_eq_ok,
    reviewed_mem_transitions]
  constructor
  · rintro ⟨_, _, ⟨hhuman, rfl⟩, old, _, ⟨hget, rfl⟩, hwrite⟩
    exact ⟨old, hhuman, hget, hwrite⟩
  · rintro ⟨old, hhuman, hget, hwrite⟩
    exact ⟨(), registry, ⟨hhuman, rfl⟩, old, registry, ⟨hget, rfl⟩, hwrite⟩

theorem review_clean : (service.review caseId actorRole).Clean :=
  requireHuman_silent.bind_clean fun _ => get_silent.bind_clean fun _ => transition_clean

/-- A human publishes a signed case. -/
theorem publish_eq_ok :
    service.publish caseId actorRole registry = (.ok new, after) ↔
      ∃ old, actorRole = "human" ∧ registry.get? caseId = some old ∧ old.status = .signed ∧
        new = old.moved .published ∧ after = registry.put new := by
  unfold publish
  simp only [Call.bind_eq_ok, requireHuman_eq_ok, get_eq_ok, transition_eq_ok,
    published_mem_transitions]
  constructor
  · rintro ⟨_, _, ⟨hhuman, rfl⟩, old, _, ⟨hget, rfl⟩, hwrite⟩
    exact ⟨old, hhuman, hget, hwrite⟩
  · rintro ⟨old, hhuman, hget, hwrite⟩
    exact ⟨(), registry, ⟨hhuman, rfl⟩, old, registry, ⟨hget, rfl⟩, hwrite⟩

theorem publish_clean : (service.publish caseId actorRole).Clean :=
  requireHuman_silent.bind_clean fun _ => get_silent.bind_clean fun _ => transition_clean

/-- A human signs a reviewed case. -/
theorem sign_eq_ok {signer : CaseSigner} :
    service.sign caseId signer actorRole registry = (.ok new, after) ↔
      ∃ old signature, actorRole = "human" ∧ registry.get? caseId = some old ∧
        old.status = .reviewed ∧ signer (signingPayload old) = .ok signature ∧
        new = old.withSignature signature ∧ after = registry.put new := by
  unfold sign
  simp only [Call.bind_eq_ok, requireHuman_eq_ok, get_eq_ok, checkTransition_eq_ok,
    Call.ofExcept_eq_ok, signed_mem_transitions]
  constructor
  · rintro ⟨_, _, ⟨hhuman, rfl⟩, old, _, ⟨hget, rfl⟩, _, _, ⟨hstatus, rfl⟩, signature, _,
      ⟨hsigner, rfl⟩, _, _, hput, hpure⟩
    cases hput
    cases hpure
    exact ⟨old, signature, hhuman, hget, hstatus, hsigner, rfl, rfl⟩
  · rintro ⟨old, signature, hhuman, hget, hstatus, hsigner, rfl, rfl⟩
    exact ⟨(), registry, ⟨hhuman, rfl⟩, old, registry, ⟨hget, rfl⟩, (), registry, ⟨hstatus, rfl⟩,
      signature, registry, ⟨hsigner, rfl⟩, (), _, rfl, rfl⟩

theorem sign_clean {signer : CaseSigner} : (service.sign caseId signer actorRole).Clean :=
  requireHuman_silent.bind_clean fun _ => get_silent.bind_clean fun _ =>
    checkTransition_silent.bind_clean fun _ => (Call.Silent.ofExcept _ _).bind_clean fun _ =>
      Call.Returns.clean fun _ => ⟨_, _, rfl⟩

/-- A draft from a signed model is validated, and reviewed as well where its risk is low. -/
theorem fastTrack_eq_ok :
    service.fastTrackModelGenerated caseId registry = (.ok new, after) ↔
      ∃ old, registry.get? caseId = some old ∧ old.origin = .modelGenerated ∧
        service.enforcePublish old = .ok () ∧ old.status = .draft ∧
        new = old.moved old.trackedStatus ∧ after = registry.put new := by
  unfold fastTrackModelGenerated
  simp only [Call.bind_eq_ok, get_eq_ok]
  constructor
  · rintro ⟨old, _, ⟨hget, rfl⟩, hrest⟩
    split at hrest
    next => cases hrest
    next horigin =>
      simp only [Call.bind_eq_ok, Call.ofExcept_eq_ok, transition_eq_ok,
        validated_mem_transitions] at hrest
      obtain ⟨_, _, ⟨hgate, rfl⟩, _, _, ⟨hstatus, rfl, rfl⟩, hrest⟩ := hrest
      refine ⟨old, hget, not_not.mp horigin, hgate, hstatus, ?_⟩
      split at hrest
      next hrisk =>
        obtain ⟨-, rfl, rfl⟩ := transition_eq_ok.mp hrest
        rw [CaseDefinition.trackedStatus, if_pos hrisk]
        exact ⟨rfl, registry.put_put rfl⟩
      next hrisk =>
        cases hrest
        rw [CaseDefinition.trackedStatus, if_neg hrisk]
        exact ⟨rfl, rfl⟩
  · rintro ⟨old, hget, horigin, hgate, hstatus, rfl, rfl⟩
    refine ⟨old, registry, ⟨hget, rfl⟩, ?_⟩
    rw [if_neg (not_not.mpr horigin)]
    simp only [Call.bind_eq_ok, Call.ofExcept_eq_ok, transition_eq_ok, validated_mem_transitions]
    refine ⟨(), registry, ⟨hgate, rfl⟩, _, _, ⟨hstatus, rfl, rfl⟩, ?_⟩
    by_cases hrisk : old.risk ∈ [RiskClass.passive, .low]
    · have htwice : (registry.put (old.moved .validated)).put (old.moved .reviewed) =
          registry.put (old.moved .reviewed) := registry.put_put rfl
      rw [if_pos hrisk, transition_eq_ok, CaseDefinition.trackedStatus, if_pos hrisk]
      exact ⟨by simp [CaseStatus.transitions], rfl, htwice.symm⟩
    · rw [if_neg hrisk, CaseDefinition.trackedStatus, if_neg hrisk]
      rfl

theorem fastTrack_clean : (service.fastTrackModelGenerated caseId).Clean := by
  refine get_silent.bind_clean fun old => ?_
  split
  · exact (Call.Silent.raise _).clean
  · refine (Call.Silent.ofExcept _ _).bind_clean fun _ => fun registry => ?_
    refine transition_clean.bind_returns fun validated registry' h => ?_
    obtain ⟨-, rfl, -⟩ := transition_eq_ok.mp h
    split
    · -- A case that was just validated can be reviewed.
      exact ⟨_, _, transition_eq_ok.mpr ⟨by simp [CaseStatus.transitions], rfl, rfl⟩⟩
    · exact ⟨_, _, rfl⟩

end Writes

end SecOpent
