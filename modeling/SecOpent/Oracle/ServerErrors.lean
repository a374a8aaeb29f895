import SecOpent.Oracle.DiffSemantic

/-!
# Server errors in a differential verification

A reproduction is to count as inconclusive when the target answers with a server error. The verifier
sees to that for a transport failure, whose status is 0. A status 5xx is not among the refusals either,
so the rule of the expectation decides as if the request had been served.

## Main definitions

* `DiffSemanticResponse.ServerError`: no response, or a status 5xx
* `Answered`: what the runner answers to the requests of a specification
* `RuledOut`: the expectation does not confirm on these responses, whatever the other statuses

## Main results

* `decideDiffOutcome_success_iff`: when the rule confirms
* `reproduce_success_iff`: when a reproduction succeeds
* `success_without_server_error_iff`: when a success means that the target had no server error
-/

namespace SecOpent

open Python

/-! ## Responses -/

/-- The target had a server error, or there was no response at all. -/
def DiffSemanticResponse.ServerError (response : DiffSemanticResponse) : Prop :=
  response.status = 0 ∨ 500 ≤ response.status ∧ response.status < 600

/-- The URL that is read back, if there is one. -/
def DiffSemanticPayload.readbackUrl (spec : DiffSemanticPayload) : Option String :=
  spec.stateReadback.filter fun url => url ≠ ""

/-- The responses of a reproduction. -/
structure DiffResponses where
  base : DiffSemanticResponse
  assertion : DiffSemanticResponse
  readback : Option DiffSemanticResponse := none

/-- All of them. -/
def DiffResponses.all (responses : DiffResponses) : List DiffSemanticResponse :=
  responses.base :: responses.assertion :: responses.readback.toList

/-- The refusals. -/
def DiffResponses.Refused (responses : DiffResponses) : Prop :=
  responses.assertion.status ∈ [400, 401, 403]

instance (responses : DiffResponses) : Decidable responses.Refused :=
  inferInstanceAs (Decidable (_ ∈ _))

/-- Without regard to server errors, the expectation does not confirm on these responses: the assertion
is refused, the bodies have another structure where that counts, what is read back has a body where that
counts, or there is no such expectation. -/
def RuledOut (expectation : Expectation) (responses : DiffResponses) : Prop :=
  responses.Refused ∨
  (expectation = .deny ∨ expectation = .singleSpend) ∧
    structureCompatible responses.base.value responses.assertion.value = false ∨
  expectation = .singleSpend ∧ (∃ state ∈ responses.readback, readbackOk state = false) ∨
  expectation = .other

/-- What `decide_diff_outcome` is asked about these responses. -/
def assertionResult (expectation : Expectation) (responses : DiffResponses) : AssertionResult where
  expectation := expectation
  base := responses.base
  assertion := responses.assertion
  refused := decide responses.Refused
  structureSame := structureCompatible responses.base.value responses.assertion.value
  stateOk := responses.readback.map readbackOk

/-- **The rule confirms** unless it is ruled out. -/
theorem decideDiffOutcome_success_iff (expectation : Expectation) (responses : DiffResponses) :
    decideDiffOutcome (assertionResult expectation responses) = .success ↔
      ¬RuledOut expectation responses := by
  have hstate : (responses.readback.map readbackOk = some false) ↔
      ∃ state ∈ responses.readback, readbackOk state = false := by
    cases responses.readback with
    | none => simp
    | some state => simp
  unfold RuledOut
  rw [← hstate, decideDiffOutcome, assertionResult]
  by_cases hrefused : responses.Refused
  · cases expectation with
    | deny => simp [hrefused]
    | singleSpend => simp [hrefused]
    | stateReject => simp [hrefused]
    | stateChange => simp [hrefused]
    | other => simp
  · cases expectation with
    | deny => simp [hrefused]
    | singleSpend =>
      -- What is read back is asked first, then the structure.
      by_cases hread : responses.readback.map readbackOk = some false
      · simp [hread]
      · simp [hrefused, hread]
    | stateReject => simp [hrefused]
    | stateChange => simp [hrefused]
    | other => simp

/-! ## Reproductions -/

section Reproduction

variable {σ S : Type}

/-- What the runner answers to the requests of a specification, one after the other. -/
structure Answered (runner : DiffSemanticRunner σ S) (session : Option S) (spec : DiffSemanticPayload)
    (s : σ) (responses : DiffResponses) : Prop where
  answered : ∃ t u,
    runner.execute session spec.baselineRequest s = (.ok responses.base, t) ∧
    runner.execute session spec.assertionRequest t = (.ok responses.assertion, u) ∧
    match spec.readbackUrl, responses.readback with
    | some url, some state =>
      ∃ v, runner.execute session [("method", .text "GET"), ("url", .text url)] u = (.ok state, v)
    | none, none => True
    | _, _ => False

/-- The session that a runner executes with. -/
def DiffSemanticRunner.sessionOf (runner : DiffSemanticRunner σ S) (session : Option S) : Option S :=
  if runner.hasWithSession then session else none

variable {runner : DiffSemanticRunner σ S} {session : Option S} {spec : DiffSemanticPayload} {s : σ}
  {responses : DiffResponses} {candidate : CandidateFinding DiffObject}

/-- What a reproduction answers: a transport failure is a server error, and the rule decides on the
rest. -/
theorem reproduce_of_answered (h : Answered runner (runner.sessionOf session) spec s responses)
    (hdiff : candidate.diff = some (.payload spec)) :
    (DiffSemanticVerifier.reproduce runner candidate session s).1 =
      .ok (if ∃ r ∈ responses.all, r.status = 0 then .serverError
        else decideDiffOutcome (assertionResult spec.expectation responses)) := by
  obtain ⟨t, u, hbase, hassertion, hreadback⟩ := h
  rw [DiffSemanticVerifier.reproduce, hdiff]
  dsimp only
  rw [DiffSemanticVerifier.compare]
  dsimp only
  rw [← DiffSemanticRunner.sessionOf, Call.bind_of_ok hbase, Call.bind_of_ok hassertion]
  by_cases hfailed : responses.base.status = 0 ∨ responses.assertion.status = 0
  · -- The state is not read back.
    have hsome : ∃ r ∈ responses.all, r.status = 0 := by
      rcases hfailed with hfailed | hfailed
      · exact ⟨_, List.mem_cons_self, hfailed⟩
      · exact ⟨_, List.mem_cons_of_mem _ List.mem_cons_self, hfailed⟩
    rw [if_pos hfailed, if_pos hsome]
    rfl
  · rw [if_neg hfailed]
    rw [not_or] at hfailed
    rw [← DiffSemanticPayload.readbackUrl]
    -- Two requests went through: the third one is sent if there is a URL for it.
    split at hreadback
    next url state hurl hstate =>
      obtain ⟨v, hstate'⟩ := hreadback
      rw [hurl]
      dsimp only
      rw [Call.bind_of_ok hstate']
      have hsome : (∃ r ∈ responses.all, r.status = 0) ↔ state.status = 0 := by
        simp [DiffResponses.all, hstate, hfailed.1, hfailed.2]
      simp only [hsome]
      split
      next => rfl
      next => simp [assertionResult, DiffResponses.Refused, hstate]
    next hurl hstate =>
      have hnone : ¬∃ r ∈ responses.all, r.status = 0 := by
        simp [DiffResponses.all, hstate, hfailed.1, hfailed.2]
      rw [hurl, if_neg hnone]
      simp [assertionResult, DiffResponses.Refused, hstate]
    next => exact hreadback.elim

/-- A reproduction succeeds if there were responses, and the rule confirms on them. -/
theorem reproduce_success_iff (h : Answered runner (runner.sessionOf session) spec s responses)
    (hdiff : candidate.diff = some (.payload spec)) :
    (DiffSemanticVerifier.reproduce runner candidate session s).1 = .ok .success ↔
      (∀ r ∈ responses.all, r.status ≠ 0) ∧ ¬RuledOut spec.expectation responses := by
  rw [reproduce_of_answered h hdiff, Except.ok.injEq, ← decideDiffOutcome_success_iff]
  split
  next hsome =>
    obtain ⟨r, hr, hstatus⟩ := hsome
    exact iff_of_false (by decide) fun hall => hall.1 r hr hstatus
  next hnone =>
    push Not at hnone
    exact (and_iff_right hnone).symm

/-- **A success means that the target had no server error** exactly if no response has a status 5xx, or
one of the requests failed in transport, or the rule does not confirm on the rest of what the responses
say. -/
theorem success_without_server_error_iff
    (h : Answered runner (runner.sessionOf session) spec s responses)
    (hdiff : candidate.diff = some (.payload spec)) :
    ((DiffSemanticVerifier.reproduce runner candidate session s).1 = .ok .success →
        ∀ r ∈ responses.all, ¬r.ServerError) ↔
      (∀ r ∈ responses.all, ¬(500 ≤ r.status ∧ r.status < 600)) ∨
        (∃ r ∈ responses.all, r.status = 0) ∨ RuledOut spec.expectation responses := by
  rw [reproduce_success_iff h hdiff]
  constructor
  · intro hsound
    by_cases hzero : ∃ r ∈ responses.all, r.status = 0
    · exact .inr (.inl hzero)
    · by_cases hruled : RuledOut spec.expectation responses
      · exact .inr (.inr hruled)
      · -- The reproduction succeeds, and then a status 5xx is one of a success.
        push Not at hzero
        exact .inl fun r hr h5xx => hsound ⟨hzero, hruled⟩ r hr (.inr h5xx)
  · rintro hwhen ⟨hzero, hruled⟩ r hr hserver
    rcases hwhen with h5xx | ⟨r', hr', hzero'⟩ | hruled'
    · rcases hserver with hstatus | hstatus
      · exact hzero r hr hstatus
      · exact h5xx r hr hstatus
    · exact hzero r' hr' hzero'
    · exact hruled hruled'

end Reproduction

/-! ## A migration that the target failed on -/

/-- A target that serves `GET`, and fails on everything else. -/
def failingTarget : DiffSemanticRunner Unit Unit where
  execute _ request s :=
    match Dict.lookup "method" request with
    | some (.text "GET") => (.ok { status := 200, body := some [("state", .text "paid")] }, s)
    | _ => (.ok { status := 500 }, s)
  hasWithSession := false

/-- An illegal migration of an order. -/
def migrationSpec : DiffSemanticPayload where
  candidateId := "order-1"
  baselineRequest := [("method", .text "GET"), ("url", .text "http://shop.example/orders/1")]
  assertionRequest := [("method", .text "POST"), ("url", .text "http://shop.example/orders/1/refund")]
  expectation := .stateChange
  candidateId_ne := by decide
  baselineRequest_ne := by simp
  assertionRequest_ne := by simp

/-- A candidate with that specification. -/
def migrationCandidate : CandidateFinding DiffObject where
  id := "order-1"
  observationId := "order-obs-1"
  vulnType := .mfaBypass
  target := "http://shop.example/orders/1"
  diff := some (.payload migrationSpec)
  id_ne := by decide
  observationId_ne := by decide
  target_ne := by decide

/-- What that target answers. -/
def migrationResponses : DiffResponses where
  base := { status := 200, body := some [("state", .text "paid")] }
  assertion := { status := 500 }

theorem answered_migration :
    Answered failingTarget (failingTarget.sessionOf none) migrationSpec () migrationResponses :=
  ⟨(), (), rfl, rfl, trivial⟩

/-- The migration failed with status 500, which confirms it. -/
theorem failed_migration_confirmed :
    (∃ r ∈ migrationResponses.all, r.ServerError) ∧
    (DiffSemanticVerifier.reproduce failingTarget migrationCandidate none ()).1 = .ok .success ∧
    ∃ result, (OracleBackend.verify
        ⟨pure "token".toList,
          fun _ => DiffSemanticVerifier.reproduce failingTarget migrationCandidate none⟩
        (.curatedDiff .mfaBypass) ()).1 = .ok result ∧ result.status = .confirmed :=
  ⟨⟨{ status := 500 }, List.mem_cons_of_mem _ List.mem_cons_self, .inr (by decide)⟩, rfl, _, rfl, rfl⟩

theorem success_without_server_error_migration :
    ((DiffSemanticVerifier.reproduce failingTarget migrationCandidate none ()).1 = .ok .success →
        ∀ r ∈ migrationResponses.all, ¬r.ServerError) ↔
      (∀ r ∈ migrationResponses.all, ¬(500 ≤ r.status ∧ r.status < 600)) ∨
        (∃ r ∈ migrationResponses.all, r.status = 0) ∨ RuledOut .stateChange migrationResponses :=
  success_without_server_error_iff answered_migration rfl

end SecOpent
