import SecOpent.Cases.Service

/-!
# What the signature of a case covers

`CaseService.sign` signs `_signing_payload`, five fields of a case joined by a bar. The payload of a
case without bars determines these five fields. It says nothing about the steps and the assertions, so
the signature of any case is as good for another one that runs other steps.

## Main definitions

* `payloadBytes`: the bytes that are signed
* `SameExecution`: two cases agree in what decides an execution
* `SignatureBinds`: every case with the same bytes agrees with this one

## Main results

* `payloadBytes_eq_iff`: what equal bytes say about cases without bars
* `payloadBytes_shift`: a bar in an id may move to the version
* `payloadBytes_running`: the payload does not depend on steps and assertions
* `signature_never_binds`: no case is bound by its signature
-/

namespace SecOpent

open Python

/-- `_signing_payload`. -/
def payloadBytes (case : CaseDefinition) : ByteArray := (signingPayload case).toUTF8

/-- The cases agree in what decides an execution; the parameters of a step are its `spec`. -/
structure SameExecution (case other : CaseDefinition) : Prop where
  id : case.id = other.id
  version : case.version = other.version
  risk : case.risk = other.risk
  steps : case.steps = other.steps
  assertions : case.assertions = other.assertions

/-- A signature over `case` is a signature over cases that run like it only. -/
def SignatureBinds (case : CaseDefinition) : Prop :=
  ∀ other, payloadBytes other = payloadBytes case → SameExecution other case

/-- The fields that are signed, in their order. -/
def CaseDefinition.signedFields (case : CaseDefinition) : List String :=
  [case.id, case.version, case.risk.value, case.targetType, case.schema]

/-- No signed field has a bar. -/
def CaseDefinition.BarFree (case : CaseDefinition) : Prop :=
  ∀ field ∈ case.signedFields, '|' ∉ field.toList

section Payload

variable {case other : CaseDefinition}

theorem payloadBytes_inj :
    payloadBytes case = payloadBytes other ↔ signingPayload case = signingPayload other := by
  unfold payloadBytes
  exact String.toByteArray_inj

theorem toList_signingPayload :
    (signingPayload case).toList = ['|'].intercalate (case.signedFields.map String.toList) := by
  unfold signingPayload CaseDefinition.signedFields
  exact String.toList_intercalate

theorem splitOn_signingPayload (h : case.BarFree) :
    (signingPayload case).toList.splitOn '|' = case.signedFields.map String.toList := by
  rw [toList_signingPayload, List.splitOn_intercalate]
  · intro text htext
    obtain ⟨field, hfield, rfl⟩ := List.mem_map.mp htext
    exact h field hfield
  · simp [CaseDefinition.signedFields]

/-- **Without bars** the payload determines what went into it. -/
theorem payloadBytes_eq_iff (hcase : case.BarFree) (hother : other.BarFree) :
    payloadBytes case = payloadBytes other ↔
      case.id = other.id ∧ case.version = other.version ∧ case.risk = other.risk ∧
        case.targetType = other.targetType ∧ case.schema = other.schema := by
  rw [payloadBytes_inj]
  constructor
  · intro h
    have hfields : case.signedFields.map String.toList = other.signedFields.map String.toList := by
      rw [← splitOn_signingPayload hcase, ← splitOn_signingPayload hother, h]
    simpa [CaseDefinition.signedFields, RiskClass.value_inj, String.toList_inj] using hfields
  · rintro ⟨hid, hversion, hrisk, htarget, hschema⟩
    unfold signingPayload
    rw [hid, hversion, hrisk, htarget, hschema]

/-- **With bars** it does not: the end of an id may as well be the start of a version. -/
theorem payloadBytes_shift {start rest version : String} (hcase : case.id = start ++ "|" ++ rest)
    (hversion : case.version = version) (hid : other.id = start)
    (hother : other.version = rest ++ "|" ++ version) (hrisk : other.risk = case.risk)
    (htarget : other.targetType = case.targetType) (hschema : other.schema = case.schema) :
    payloadBytes other = payloadBytes case := by
  rw [payloadBytes_inj]
  unfold signingPayload
  rw [hcase, hversion, hid, hother, hrisk, htarget, hschema]
  simp [String.append_assoc]

/-- The case with other steps and assertions. -/
def CaseDefinition.running (case : CaseDefinition) (steps : List CaseStep) (steps_ne : steps ≠ [])
    (assertions : List CaseAssertion) : CaseDefinition :=
  { case with steps, steps_ne, assertions }

/-- **The payload says nothing about steps and assertions**: any others give the same bytes. -/
theorem payloadBytes_running {steps : List CaseStep} (steps_ne : steps ≠ [])
    (assertions : List CaseAssertion) :
    payloadBytes (case.running steps steps_ne assertions) = payloadBytes case := rfl

/-- A step that deletes something. -/
def deleteStep : CaseStep where
  id := "s1"
  action := "http.request"
  spec := .ofItems [("method", .text "DELETE")]
  id_ne := by decide
  action_ne := by decide

/-- **No case is bound by its signature**: the case with one more step has the same payload. -/
theorem signature_never_binds (case : CaseDefinition) : ¬SignatureBinds case := by
  intro h
  have hsame := h _ (payloadBytes_running (List.cons_ne_nil deleteStep case.steps) case.assertions)
  exact List.cons_ne_self deleteStep case.steps hsame.steps

/-- A case that looks up a name. -/
def lookupCase : CaseDefinition where
  id := "c1"
  version := "1.0.0"
  author := "human"
  risk := .low
  targetType := "domain"
  schema := "secopent.case/v1"
  steps := [⟨"s1", "dns.resolve", .empty, by decide, by decide⟩]
  id_ne := by decide
  version_ne := by decide
  author_ne := by decide
  targetType_ne := by decide
  schema_ne := by decide
  steps_ne := by decide

/-- A case that deletes something is signed together with one that looks up a name. -/
theorem lookup_signature_vouches_for_delete :
    ¬∀ case other : CaseDefinition, payloadBytes other = payloadBytes case →
      SameExecution other case := by
  intro h
  have hsame := h lookupCase (lookupCase.running [deleteStep] (List.cons_ne_nil _ _) []) rfl
  have haction := congrArg (List.map CaseStep.action) hsame.steps
  revert haction
  decide

end Payload

end SecOpent
