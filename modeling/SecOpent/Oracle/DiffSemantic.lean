import SecOpent.Oracle.Verification
import SecOpent.Python.Json

/-!
# Differential verification

`domain/verification/diff_semantic.py` and `infrastructure/oracle/diff_semantic_verifier.py`: a
candidate of a logic vulnerability is tested by two requests, whose responses are compared by status
and structure, and by an optional readback of the state.

## Main definitions

* `DiffSemanticPayload`: the two requests and the expectation, what a candidate carries
* `structureCompatible`: the structural comparison of two bodies
* `decideDiffOutcome`: the verdict of one comparison
* `DiffSemanticVerifier.reproduce`: one reproduction

## Main results

* `reproduce_of_no_payload`: without a specification every reproduction fails
-/

namespace SecOpent

open Python

/-- `Expectation`; `other` stands for the values of the field that are none of its members. -/
inductive Expectation
  | deny | singleSpend | stateReject | stateChange | other
  deriving DecidableEq, Repr

/-- A request, as the members of its `dict`. -/
abbrev DiffRequest := List (String × Json)

/-- `DiffSemanticPayload`, with the checks of `__post_init__`. -/
structure DiffSemanticPayload where
  candidateId : String
  baselineRequest : DiffRequest
  assertionRequest : DiffRequest
  expectation : Expectation
  stateReadback : Option String := none
  candidateId_ne : candidateId ≠ ""
  baselineRequest_ne : baselineRequest ≠ []
  assertionRequest_ne : assertionRequest ≠ []

/-- What the `diff` field of a candidate holds: a specification, or some other object. -/
inductive DiffObject
  | payload (spec : DiffSemanticPayload)
  | other

/-- `DiffSemanticResponse`. -/
structure DiffSemanticResponse where
  status : ℤ
  body : Option (List (String × Json)) := none
  error : String := ""

/-- `AssertionResult`. -/
structure AssertionResult where
  expectation : Expectation
  base : DiffSemanticResponse
  assertion : DiffSemanticResponse
  refused : Bool
  structureSame : Bool
  stateOk : Option Bool := none

/-! ## The verdict of one comparison -/

/-- `decide_diff_outcome`. -/
def decideDiffOutcome (r : AssertionResult) : ReproductionStatus :=
  match r.expectation with
  | .deny =>
    if !r.refused && r.structureSame then .success
    else if r.refused then .failure
    else .serverError
  | .singleSpend =>
    if r.stateOk = some false then .failure
    else if !r.refused && r.structureSame then .success
    else if r.refused then .failure
    else .serverError
  | .stateReject => if !r.refused then .success else .failure
  | .stateChange => if !r.refused then .success else .failure
  | .other => .serverError

/-- `type(a) is type(b)`. -/
def sameType : Json → Json → Bool
  | .null, .null => true
  | .bool _, .bool _ => true
  | .int _, .int _ => true
  | .float _, .float _ => true
  | .text _, .text _ => true
  | .list _, .list _ => true
  | .object _, .object _ => true
  | _, _ => false

/-- `a.keys() == b.keys()`. -/
def sameKeys (a b : List (String × Json)) : Bool :=
  a.all (fun field => (b.map Prod.fst).contains field.1) &&
    b.all fun field => (a.map Prod.fst).contains field.1

mutual

/-- `_structure_compatible`. -/
def structureCompatible : Json → Json → Bool
  | .null, b => sameType .null b
  | .object fields, b =>
    match b with
    | .object fields' => sameKeys fields fields' && compatibleFields fields fields'
    | _ => false
  | .list items, b =>
    match b with
    | .list items' => items.length == items'.length && compatibleItems items items'
    | _ => false
  | .bool a, b => sameType (.bool a) b
  | .int a, b => sameType (.int a) b
  | .float a, b => sameType (.float a) b
  | .text a, b => sameType (.text a) b

/-- The items of two lists of one length, in turn. -/
def compatibleItems : List Json → List Json → Bool
  | item :: items, item' :: items' =>
    structureCompatible item item' && compatibleItems items items'
  | _, _ => true

/-- The members of `a`, each with the member of `b` under its key. -/
def compatibleFields : List (String × Json) → List (String × Json) → Bool
  | [], _ => true
  | (key, value) :: fields, fields' =>
    (match Dict.lookup key fields' with
      | some value' => structureCompatible value value'
      | none => false) &&
      compatibleFields fields fields'

end

/-- The body of a response as a value. -/
def DiffSemanticResponse.value (response : DiffSemanticResponse) : Json :=
  match response.body with
  | some fields => .object fields
  | none => .null

/-- `_readback_ok`: the body is missing or empty. -/
def readbackOk (state : DiffSemanticResponse) : Bool :=
  match state.body with
  | some fields => fields.isEmpty
  | none => true

/-! ## The verifier -/

/-- `DiffSemanticRunner`: requests are executed with its own session (`none`) or with one that it was
bound to; not every runner can be bound. -/
structure DiffSemanticRunner (σ S : Type) where
  execute : Option S → DiffRequest → Call σ DiffSemanticResponse
  hasWithSession : Bool

namespace DiffSemanticVerifier

variable {σ S : Type} (runner : DiffSemanticRunner σ S)

/-- The responses of the two requests and of the readback, compared. -/
def compare (spec : DiffSemanticPayload) (session : Option S) : Call σ ReproductionStatus := do
  let session := if runner.hasWithSession then session else none
  let base ← runner.execute session spec.baselineRequest
  let assertion ← runner.execute session spec.assertionRequest
  if base.status = 0 ∨ assertion.status = 0 then pure .serverError
  else
    let refused := decide (assertion.status ∈ [400, 401, 403])
    let structureSame := structureCompatible base.value assertion.value
    match spec.stateReadback.filter fun url => url ≠ "" with
    | some url =>
      let state ← runner.execute session [("method", .text "GET"), ("url", .text url)]
      if state.status = 0 then pure .serverError
      else
        pure (decideDiffOutcome
          ⟨spec.expectation, base, assertion, refused, structureSame, some (readbackOk state)⟩)
    | none =>
      pure (decideDiffOutcome ⟨spec.expectation, base, assertion, refused, structureSame, none⟩)

/-- `DiffSemanticVerifier.reproduce`. -/
def reproduce (candidate : CandidateFinding DiffObject) (session : Option S) :
    Call σ ReproductionStatus :=
  match candidate.diff with
  | some (.payload spec) => compare runner spec session
  | _ => pure .failure

/-- Without a specification every reproduction fails. -/
theorem reproduce_of_no_payload {candidate : CandidateFinding DiffObject}
    (h : ∀ spec, candidate.diff ≠ some (.payload spec)) (session : Option S) :
    reproduce runner candidate session = pure .failure := by
  unfold reproduce
  split
  next spec hspec => exact absurd hspec (h spec)
  · rfl

end DiffSemanticVerifier

end SecOpent
