import SecOpent.Findings.Correlation
import SecOpent.Oracle.Canary
import SecOpent.Oracle.DiffSemantic

/-!
# The two entry points to the oracle

`application/oracle_service.py` verifies the findings of an assessment, and
`application/reasoning_loop/loop_oracle.py` the candidates of the reasoning loop. Both ask the factory
of `infrastructure/oracle/verifier_factory.py` for a verifier; logic classes get the differential one,
which needs a specification. The loop returns `inconclusive` for a logic candidate without one. The
service builds its candidates without a specification, and refutes them.

## Main definitions

* `OracleEngine.verify`: the engine on a candidate
* `RescanVerifierFactory.forFinding`: the verifier of a finding
* `OracleService.verifyOne`, `OracleService.verifyFindings`: the assessment path
* `LoopOracleVerifier.verify`: the loop path

## Main results

* `verify_refuted_of_failures`: a verifier that only fails refutes
* `oracle_paths_without_spec`: the verdicts of both paths on a class of the differential verifier
-/

namespace SecOpent

open Python

/-! ## The engine and the factory -/

/-- `OracleVerifier`: one reproduction of a candidate under a method and a token. -/
abbrev OracleVerifier (σ S : Type) :=
  CandidateFinding DiffObject → VerificationMethod → Str → Option S → Call σ ReproductionStatus

/-- `CanaryTokenManager.generate`, by actor, candidate id and session. -/
abbrev TokenSource (σ S : Type) := String → String → Option S → Call σ Str

/-- `OracleEngine`. -/
structure OracleEngine (σ S : Type) where
  registry : VerificationMethodRegistry
  verifier : OracleVerifier σ S
  canary : TokenSource σ S

/-- `OracleEngine.verify`. -/
def OracleEngine.verify {σ S : Type} (engine : OracleEngine σ S)
    (candidate : CandidateFinding DiffObject) (actor : String) (session : Option S) :
    Call σ VerificationResult := do
  let method ← Call.ofExcept OracleError.text (engine.registry.requireMethod candidate.vulnType)
  let backend : OracleBackend σ :=
    { generate := engine.canary actor candidate.id session
      reproduce := fun token => engine.verifier candidate method token session }
  backend.verify method

/-- `OOB_PLACEHOLDER`. -/
def oobPlaceholder : Str := "\x7b\x7bcanary_oob_subdomain\x7d\x7d".toList

/-- `scan_kwargs` of a rescan. -/
structure ScanKwargs where
  adapterKey : String := "nuclei"
  args : List Str
  mounts : Option (Str × Str)

/-- `RescanVerifierFactory`; `rescan` is the rescan verifier of its scan runner. -/
structure RescanVerifierFactory (σ S : Type) where
  templateHostDir : Option Str
  methodRegistry : Option VerificationMethodRegistry
  diffRunnerFactory : Call σ (DiffSemanticRunner σ S)
  rescan : ScanKwargs → OracleVerifier σ S

namespace RescanVerifierFactory

variable {σ S : Type} (factory : RescanVerifierFactory σ S)

/-- The method that the factory has for a class. -/
def methodFor (vulnType : VulnType) : Option VerificationMethod :=
  factory.methodRegistry.bind fun registry => registry.methodFor vulnType

/-- The class is routed to the differential verifier. -/
def RoutesToDiff (vulnType : VulnType) : Prop :=
  ∃ method, factory.methodFor vulnType = some method ∧ method.diffSemantic = true

/-- The probe of a rescan. -/
def scanKwargs (asset : Str) (echo : Bool) : ScanKwargs :=
  let sep := if '?' ∈ asset then "&".toList else "?".toList
  let url := asset ++ sep ++ "cb=".toList ++ oobPlaceholder
  let url := if echo then url ++ "&echo=".toList ++ canaryPlaceholder else url
  { args := ["-t".toList, "/templates/".toList, "-u".toList, url, "-jsonl".toList, "-silent".toList,
      "-duc".toList]
    mounts := (factory.templateHostDir.filter fun dir => dir ≠ []).map fun dir =>
      ("/templates".toList, dir) }

/-- `for_finding`, of a finding with this asset. -/
def forFinding (asset : Str) (vulnType : VulnType) : Call σ (OracleVerifier σ S) :=
  match factory.methodFor vulnType with
  | some method =>
    if method.diffSemantic then do
      let runner ← factory.diffRunnerFactory
      pure fun candidate _ _ session => DiffSemanticVerifier.reproduce runner candidate session
    else pure (factory.rescan (factory.scanKwargs asset method.echoEnabled))
  | none => pure (factory.rescan (factory.scanKwargs asset false))

end RescanVerifierFactory

/-! ## The assessment path -/

/-- `_CWE_TO_VULN`. -/
def vulnTypeForCwe : String → Option VulnType
  | "CWE-89" => some .sqli
  | "CWE-77" => some .rce
  | "CWE-78" => some .rce
  | "CWE-918" => some .ssrf
  | "CWE-611" => some .xxe
  | "CWE-79" => some .xss
  | "CWE-502" => some .deserialization
  | "CWE-22" => some .pathTraversal
  | "CWE-23" => some .pathTraversal
  | "CWE-35" => some .pathTraversal
  | "CWE-639" => some .idor
  | "CWE-287" => some .authBypass
  | "CWE-306" => some .authBypass
  | "CWE-269" => some .privilegeEscalation
  | "CWE-521" => some .weakCredentials
  | _ => none

/-- `vuln_type_for_cwes`: the first one that is mapped. -/
def vulnTypeForCwes (cwes : List String) : Option VulnType := cwes.findSome? vulnTypeForCwe

/-- Where the service writes: the repositories, the audit log and chain, and the session. -/
structure OracleStores (σ : Type) where
  addConfirmed : ConfirmedFinding → Call σ Unit
  addFinding : Finding → Call σ Unit
  audit : String → String → String → List (String × Json) → Call σ Unit
  commit : Call σ Unit

/-- `OracleSummary`. -/
structure OracleSummary where
  confirmed : ℕ := 0
  refuted : ℕ := 0
  inconclusive : ℕ := 0
  skipped : ℕ := 0
  failed : ℕ := 0
  deriving DecidableEq

/-- The counters after a finding; `none` is a verification that raised. -/
def OracleSummary.count (summary : OracleSummary) : Option VerificationStatus → OracleSummary
  | some .confirmed => { summary with confirmed := summary.confirmed + 1 }
  | some .refuted => { summary with refuted := summary.refuted + 1 }
  | some .inconclusive => { summary with inconclusive := summary.inconclusive + 1 }
  | some .pending => summary
  | none => { summary with failed := summary.failed + 1 }

/-- `OracleService`. -/
structure OracleService (σ S : Type) where
  registry : VerificationMethodRegistry
  canary : TokenSource σ S
  factory : RescanVerifierFactory σ S

namespace OracleService

variable {σ S : Type} (service : OracleService σ S) (stores : OracleStores σ)

/-- The end of `_verify_one`: the verdict is written, audited and committed. -/
def record (finding : Finding) (vulnType : VulnType) (actor : String) (result : VerificationResult) :
    Call σ VerificationStatus := do
  stores.addFinding { finding with oracleVerdict := result.status }
  stores.audit actor finding.id "oracle.verified"
    [("vuln_type", .text vulnType.value), ("status", .text result.status.value),
      ("successes", .int result.successes), ("attempts", .int result.attempts),
      ("reason", .text result.reason)]
  stores.commit
  pure result.status

/-- `_verify_one`. -/
def verifyOne (finding : Finding) (vulnType : VulnType) (actor : String) (verifiedAt : DateTime)
    (session : Option S) : Call σ VerificationStatus := do
  let candidate ← Call.ofExcept OracleError.text
    (CandidateFinding.create finding.id (finding.observationIds.head?.getD finding.id) vulnType
      finding.asset none)
  let verifier ← service.factory.forFinding finding.asset.toList vulnType
  let engine : OracleEngine σ S := ⟨service.registry, verifier, service.canary⟩
  let result ← engine.verify candidate actor session
  if result.status = .confirmed then
    let confirmed ← Call.ofExcept OracleError.text
      (confirm candidate result finding.evidenceIds verifiedAt)
    stores.addConfirmed confirmed
  record stores finding vulnType actor result

/-- `verify_findings`, after the findings that are already counted. -/
def verifyFindings (actor : String) (verifiedAt : DateTime) (session : Option S) :
    List Finding → OracleSummary → Call σ OracleSummary
  | [], summary => pure summary
  | finding :: findings, summary =>
    match vulnTypeForCwes finding.cwe with
    | none =>
      verifyFindings actor verifiedAt session findings { summary with skipped := summary.skipped + 1 }
    | some vulnType => do
      let status ← Call.tryExcept
        (do
          let status ← service.verifyOne stores finding vulnType actor verifiedAt session
          pure (some status))
        fun error => do
          stores.audit actor finding.id "oracle.verification_failed" [("reason", .text error)]
          pure none
      verifyFindings actor verifiedAt session findings (summary.count status)

end OracleService

/-! ## The loop path -/

/-- `OracleOutcome`. -/
structure OracleOutcome where
  status : VerificationStatus
  successes : ℕ
  attempts : ℕ
  reason : String
  deriving DecidableEq

/-- `LoopOracleVerifier`; `repr` is Python's `repr` of a text. -/
structure LoopOracleVerifier (σ S : Type) where
  registry : VerificationMethodRegistry
  canary : TokenSource σ S
  factory : RescanVerifierFactory σ S
  candidateProvider : String → Call σ (Option (CandidateFinding DiffObject))
  repr : String → String

namespace LoopOracleVerifier

variable {σ S : Type} (loop : LoopOracleVerifier σ S)

/-- `_inconclusive`. -/
def inconclusive (reason : String) : OracleOutcome := ⟨.inconclusive, 0, 0, reason⟩

/-- The part of `verify` that has found its candidate. -/
def verifyCandidate (candidateId : String) (candidate : CandidateFinding DiffObject) (actor : String)
    (session : Option S) : Call σ OracleOutcome := do
  let method ← Call.ofExcept OracleError.text (loop.registry.requireMethod candidate.vulnType)
  if method.diffSemantic ∧ candidate.diff.isNone then
    pure (inconclusive
      ("logic candidate " ++ loop.repr candidateId ++ " has no diff spec (refusing to REFUTE)"))
  else
    let verifier ← loop.factory.forFinding candidate.target.toList candidate.vulnType
    let engine : OracleEngine σ S := ⟨loop.registry, verifier, loop.canary⟩
    let result ← engine.verify candidate actor session
    pure ⟨result.status, result.successes, result.attempts, result.reason⟩

/-- `LoopOracleVerifier.verify`. -/
def verify (candidateId actor : String) (session : Option S) : Call σ OracleOutcome :=
  if candidateId = "" then pure (inconclusive "no candidate_id in request_oracle payload")
  else do
    match ← loop.candidateProvider candidateId with
    | none => pure (inconclusive ("candidate " ++ loop.repr candidateId ++ " not found"))
    | some candidate => loop.verifyCandidate candidateId candidate actor session

end LoopOracleVerifier

/-! ## A verifier that only fails -/

section Failures

variable {σ S : Type} {s s' : σ}

/-- Reproductions that only fail refute, as they hit no server error. -/
theorem verify_refuted_of_failures {backend : OracleBackend σ} {method : VerificationMethod}
    {result : VerificationResult} (hfail : ∀ token, backend.reproduce token = pure .failure)
    (h : backend.verify method s = (.ok result, s')) : result.status = .refuted := by
  obtain ⟨statuses, t, hstatuses, hresult⟩ := Call.bind_eq_ok.mp h
  cases hresult
  have hlength := OracleBackend.length_of_reproductions hstatuses
  have hall : ∀ status ∈ statuses, status = .failure :=
    OracleBackend.forall_of_reproductions hfail hstatuses
  have hnone : ∀ status : ReproductionStatus, status ≠ .failure → statuses.count status = 0 := by
    intro status hne
    exact List.count_eq_zero.mpr fun hmem => hne (hall status hmem)
  rw [refuted_iff hlength, hnone .success (by decide), hnone .serverError (by decide)]
  exact ⟨method.one_le_defaultN, method.one_le_threshold⟩

theorem OracleEngine.verify_refuted_of_failures {engine : OracleEngine σ S}
    {candidate : CandidateFinding DiffObject} {actor : String} {session : Option S}
    {result : VerificationResult}
    (hfail : ∀ method token, engine.verifier candidate method token session = pure .failure)
    (h : engine.verify candidate actor session s = (.ok result, s')) : result.status = .refuted := by
  obtain ⟨method, t, -, hverify⟩ := Call.bind_eq_ok.mp h
  exact SecOpent.verify_refuted_of_failures (fun token => hfail method token) hverify

theorem OracleEngine.verify_returns_of_failures {engine : OracleEngine σ S}
    {candidate : CandidateFinding DiffObject} {actor : String} {session : Option S}
    {method : VerificationMethod} (hmethod : engine.registry.methodFor candidate.vulnType = some method)
    (hcanary : (engine.canary actor candidate.id session).Returns)
    (hfail : ∀ method token, engine.verifier candidate method token session = pure .failure) :
    (engine.verify candidate actor session).Returns := by
  have hrequire : engine.registry.requireMethod candidate.vulnType = .ok method := by
    simp only [VerificationMethodRegistry.requireMethod, hmethod]
  rw [OracleEngine.verify, hrequire]
  refine Call.Returns.bind (.pure method) fun method => OracleBackend.verify_returns hcanary ?_
  intro token
  show (engine.verifier candidate method token session).Returns
  rw [hfail method token]
  exact .pure _

/-- The verifier of a class that is routed to the differential one. -/
theorem RescanVerifierFactory.forFinding_of_routes {factory : RescanVerifierFactory σ S}
    {vulnType : VulnType} (hroutes : factory.RoutesToDiff vulnType) (asset : Str) :
    factory.forFinding asset vulnType = (do
      let runner ← factory.diffRunnerFactory
      pure fun candidate _ _ session => DiffSemanticVerifier.reproduce runner candidate session) := by
  obtain ⟨method, hmethod, hdiff⟩ := hroutes
  simp only [forFinding, hmethod, hdiff, if_true]

/-- The differential verifier fails on a candidate without a specification. -/
theorem RescanVerifierFactory.fails_of_no_payload {factory : RescanVerifierFactory σ S}
    {vulnType : VulnType} (hroutes : factory.RoutesToDiff vulnType) {asset : Str}
    {verifier : OracleVerifier σ S}
    (h : factory.forFinding asset vulnType s = (.ok verifier, s'))
    {candidate : CandidateFinding DiffObject}
    (hspec : ∀ spec, candidate.diff ≠ some (.payload spec)) (method : VerificationMethod) (token : Str)
    (session : Option S) : verifier candidate method token session = pure .failure := by
  rw [forFinding_of_routes hroutes] at h
  obtain ⟨runner, t, -, hpure⟩ := Call.bind_eq_ok.mp h
  cases hpure
  exact DiffSemanticVerifier.reproduce_of_no_payload runner hspec session

end Failures

/-! ## Both paths without a specification -/

section WithoutSpec

variable {σ S : Type}

/-- Nothing that the service calls for a refuted finding of this class raises. -/
structure OracleService.Working (service : OracleService σ S) (stores : OracleStores σ)
    (vulnType : VulnType) : Prop where
  method : ∃ method, service.registry.methodFor vulnType = some method
  canary : ∀ actor candidateId session, (service.canary actor candidateId session).Returns
  runner : service.factory.diffRunnerFactory.Returns
  addFinding : ∀ finding, (stores.addFinding finding).Returns
  audit : ∀ actor findingId action payload, (stores.audit actor findingId action payload).Returns
  commit : stores.commit.Returns

/-- The candidate of the finding can be built. -/
def Finding.Candidate (finding : Finding) : Prop :=
  finding.id ≠ "" ∧ finding.asset ≠ "" ∧ finding.observationIds.head? ≠ some ""

variable {service : OracleService σ S} {stores : OracleStores σ} {vulnType : VulnType}
  {finding : Finding} {actor : String} {verifiedAt : DateTime} {session : Option S} {s s' : σ}

/-- The service builds its candidates without a specification. -/
theorem diff_of_create {id observationId target : String} {candidate : CandidateFinding DiffObject}
    (h : CandidateFinding.create id observationId vulnType target none = .ok candidate) :
    candidate.diff = none ∧ candidate.vulnType = vulnType := by
  unfold CandidateFinding.create at h
  split_ifs at h
  all_goals cases h
  exact ⟨rfl, rfl⟩

/-- A candidate can be built of a finding with an id, an asset and a first observation. -/
theorem Finding.Candidate.create (h : finding.Candidate) (vulnType : VulnType) :
    ∃ candidate : CandidateFinding DiffObject, CandidateFinding.create finding.id
      (finding.observationIds.head?.getD finding.id) vulnType finding.asset none = .ok candidate := by
  obtain ⟨hid, hasset, hobservation⟩ := h
  have hfirst : finding.observationIds.head?.getD finding.id ≠ "" := by
    cases hhead : finding.observationIds.head? with
    | none => exact hid
    | some first =>
      rintro rfl
      exact hobservation hhead
  rw [CandidateFinding.create, dif_neg hid, dif_neg hfirst, dif_neg hasset]
  exact ⟨_, rfl⟩

theorem OracleService.status_of_record {result : VerificationResult} {status : VerificationStatus}
    (h : record stores finding vulnType actor result s = (.ok status, s')) :
    status = result.status := by
  obtain ⟨-, s₁, -, h⟩ := Call.bind_eq_ok.mp h
  obtain ⟨-, s₂, -, h⟩ := Call.bind_eq_ok.mp h
  obtain ⟨-, s₃, -, h⟩ := Call.bind_eq_ok.mp h
  cases h
  rfl

/-- What the service returns for a class of the differential verifier is a refutation. -/
theorem OracleService.verifyOne_refuted (hroutes : service.factory.RoutesToDiff vulnType)
    {status : VerificationStatus}
    (h : service.verifyOne stores finding vulnType actor verifiedAt session s = (.ok status, s')) :
    status = .refuted := by
  obtain ⟨candidate, s₁, hcandidate, h⟩ := Call.bind_eq_ok.mp h
  obtain ⟨verifier, s₂, hverifier, h⟩ := Call.bind_eq_ok.mp h
  obtain ⟨result, s₃, hresult, h⟩ := Call.bind_eq_ok.mp h
  obtain ⟨hdiff, -⟩ := diff_of_create (Call.ofExcept_eq_ok.mp hcandidate).1
  have hrefuted : result.status = .refuted := by
    refine OracleEngine.verify_refuted_of_failures (fun method token => ?_) hresult
    exact RescanVerifierFactory.fails_of_no_payload hroutes hverifier (by simp [hdiff]) method token
      session
  rw [if_neg (by simp [hrefuted])] at h
  rw [status_of_record h, hrefuted]

/-- It returns one whenever nothing raises. -/
theorem OracleService.verifyOne_returns (hworking : service.Working stores vulnType)
    (hroutes : service.factory.RoutesToDiff vulnType) (hcandidate : finding.Candidate) (s : σ) :
    ∃ s', service.verifyOne stores finding vulnType actor verifiedAt session s =
      (.ok .refuted, s') := by
  -- The calls in their order, each from the state that the one before has left.
  obtain ⟨method, hmethod⟩ := hworking.method
  obtain ⟨runner, s₁, hrunner⟩ := hworking.runner s
  obtain ⟨candidate, hcreate⟩ := hcandidate.create vulnType
  obtain ⟨hdiff, rfl⟩ := diff_of_create hcreate
  have hverifier : ∃ verifier,
      service.factory.forFinding finding.asset.toList candidate.vulnType s = (.ok verifier, s₁) := by
    rw [RescanVerifierFactory.forFinding_of_routes hroutes, Call.bind_of_ok hrunner]
    exact ⟨_, rfl⟩
  obtain ⟨verifier, hverifier⟩ := hverifier
  let engine : OracleEngine σ S := ⟨service.registry, verifier, service.canary⟩
  have hfail : ∀ method token, engine.verifier candidate method token session = pure .failure :=
    fun method token =>
      RescanVerifierFactory.fails_of_no_payload hroutes hverifier (by simp [hdiff]) method token
        session
  have hverify : (engine.verify candidate actor session).Returns :=
    OracleEngine.verify_returns_of_failures hmethod (hworking.canary actor candidate.id session)
      hfail
  obtain ⟨result, s₂, hresult⟩ := hverify s₁
  have hrefuted := OracleEngine.verify_refuted_of_failures hfail hresult
  have hrecord : (record stores finding candidate.vulnType actor result).Returns :=
    (hworking.addFinding _).bind fun _ => (hworking.audit _ _ _ _).bind fun _ =>
      hworking.commit.bind fun _ => .pure _
  obtain ⟨status, s₃, hstatus⟩ := hrecord s₂
  refine ⟨s₃, ?_⟩
  rw [verifyOne, hcreate]
  refine Call.bind_eq_ok.mpr ⟨candidate, s, rfl, ?_⟩
  refine Call.bind_eq_ok.mpr ⟨verifier, s₁, hverifier, ?_⟩
  refine Call.bind_eq_ok.mpr ⟨result, s₂, hresult, ?_⟩
  rw [if_neg (by simp [hrefuted])]
  show record stores finding candidate.vulnType actor result s₂ = _
  rw [hstatus, status_of_record hstatus, hrefuted]

variable {loop : LoopOracleVerifier σ S} {candidate : CandidateFinding DiffObject}
  {candidateId : String}

/-- The loop refutes a candidate without a specification exactly if its guard does not see that it has
none. -/
theorem LoopOracleVerifier.verifyCandidate_refuted_iff
    (hroutes : loop.factory.RoutesToDiff candidate.vulnType)
    (hspec : ∀ spec, candidate.diff ≠ some (.payload spec)) {outcome : OracleOutcome}
    (h : loop.verifyCandidate candidateId candidate actor session s = (.ok outcome, s')) :
    outcome.status ≠ .refuted ↔ candidate.diff = none ∧
      ∃ method, loop.registry.methodFor candidate.vulnType = some method ∧
        method.diffSemantic = true := by
  obtain ⟨method, s₁, hmethod, h⟩ := Call.bind_eq_ok.mp h
  have hrequire := (Call.ofExcept_eq_ok.mp hmethod).1
  have hfor : loop.registry.methodFor candidate.vulnType = some method := by
    unfold VerificationMethodRegistry.requireMethod at hrequire
    split at hrequire
    next found heq =>
      cases hrequire
      exact heq
    · cases hrequire
  by_cases hguard : method.diffSemantic ∧ candidate.diff.isNone
  · -- The guard of the loop: nothing is verified.
    rw [if_pos hguard] at h
    cases h
    exact ⟨fun _ => ⟨Option.isNone_iff_eq_none.mp hguard.2, method, hfor, hguard.1⟩,
      fun _ => by simp [inconclusive]⟩
  · -- Past the guard the verifier fails, and the candidate is refuted.
    rw [if_neg hguard] at h
    obtain ⟨verifier, s₂, hverifier, h⟩ := Call.bind_eq_ok.mp h
    obtain ⟨result, s₃, hresult, h⟩ := Call.bind_eq_ok.mp h
    cases h
    have hrefuted : result.status = .refuted := by
      refine OracleEngine.verify_refuted_of_failures (fun method token => ?_) hresult
      exact RescanVerifierFactory.fails_of_no_payload hroutes hverifier hspec method token session
    constructor
    · intro hne
      exact absurd hrefuted hne
    · rintro ⟨hnone, other, hother, hdiff⟩
      rw [hfor] at hother
      cases hother
      exact absurd ⟨hdiff, Option.isNone_iff_eq_none.mpr hnone⟩ hguard

/-- **Both paths on a class of the differential verifier, without a specification**: every verdict that
the service returns is a refutation, and it returns one whenever nothing raises; the loop returns
another verdict exactly if its registry marks the class as differential and the candidate carries no
object at all. -/
theorem oracle_paths_without_spec (hservice : service.factory.RoutesToDiff vulnType)
    (hloop : loop.factory.RoutesToDiff candidate.vulnType)
    (hspec : ∀ spec, candidate.diff ≠ some (.payload spec)) (hid : candidateId ≠ "") :
    (∀ s s' status,
      service.verifyOne stores finding vulnType actor verifiedAt session s = (.ok status, s') →
        status = .refuted) ∧
    (service.Working stores vulnType → finding.Candidate → ∀ s, ∃ s',
      service.verifyOne stores finding vulnType actor verifiedAt session s = (.ok .refuted, s')) ∧
    ∀ s t s' outcome, loop.candidateProvider candidateId s = (.ok (some candidate), t) →
      loop.verify candidateId actor session s = (.ok outcome, s') →
        (outcome.status ≠ .refuted ↔ candidate.diff = none ∧
          ∃ method, loop.registry.methodFor candidate.vulnType = some method ∧
            method.diffSemantic = true) := by
  refine ⟨?_, ?_, ?_⟩
  · intro s s' status h
    exact OracleService.verifyOne_refuted hservice h
  · intro hworking hcandidate s
    exact OracleService.verifyOne_returns hworking hservice hcandidate s
  · intro s t s' outcome hprovider h
    rw [LoopOracleVerifier.verify, if_neg hid, Call.bind_of_ok hprovider] at h
    exact LoopOracleVerifier.verifyCandidate_refuted_iff hloop hspec h

end WithoutSpec

/-! ## An access-control finding -/

/-- A store that keeps the findings and accepts everything. -/
def findingLog : OracleStores (List Finding) where
  addConfirmed _ := pure ()
  addFinding finding := fun findings => (.ok (), findings ++ [finding])
  audit _ _ _ _ := pure ()
  commit := pure ()

/-- A runner whose requests are not sent. -/
def silentRunner : DiffSemanticRunner (List Finding) Unit where
  execute _ _ := pure { status := 0, error := "request 'url' must be a non-empty string" }
  hasWithSession := true

/-- The factory of the daemon, on the default registry. -/
def daemonFactory : RescanVerifierFactory (List Finding) Unit where
  templateHostDir := none
  methodRegistry := some defaultRegistry
  diffRunnerFactory := pure silentRunner
  rescan _ := fun _ _ _ _ => pure .failure

/-- The service of the daemon. -/
def daemonOracle : OracleService (List Finding) Unit where
  registry := defaultRegistry
  canary _ _ _ := pure "q8Zk1vX0mB7cR2tYw5nLdA".toList
  factory := daemonFactory

/-- A loop on the same registry, with one candidate that carries no specification. -/
def daemonLoop (candidate : CandidateFinding DiffObject) : LoopOracleVerifier (List Finding) Unit where
  registry := defaultRegistry
  canary _ _ _ := pure "q8Zk1vX0mB7cR2tYw5nLdA".toList
  factory := daemonFactory
  candidateProvider _ := pure (some candidate)
  repr text := "'" ++ text ++ "'"

/-- A scanner reported an insecure direct object reference. -/
def idorFinding : Finding where
  id := "finding:0123456789abcdef"
  fingerprint := "sha256:0123456789abcdef"
  title := "order of another user is readable"
  asset := "http://app.example.com/orders/7"
  severity := .high
  cwe := ["CWE-639"]
  cve := []
  owasp := []
  observationIds := ["obs-7"]
  status := .candidate

/-- The same as a candidate of the loop. -/
def idorCandidate : CandidateFinding DiffObject where
  id := "finding:0123456789abcdef"
  observationId := "obs-7"
  vulnType := .idor
  target := "http://app.example.com/orders/7"
  id_ne := by decide
  observationId_ne := by decide
  target_ne := by decide

/-- The service refutes the finding that the loop leaves open. -/
theorem untested_finding_refuted :
    vulnTypeForCwes idorFinding.cwe = some .idor ∧ daemonFactory.RoutesToDiff .idor ∧
      daemonOracle.verifyOne findingLog idorFinding .idor "oracle" ⟨2026, 8, 13, 9, 30, 0, 0⟩ none [] =
        (.ok .refuted, [{ idorFinding with oracleVerdict := .refuted }]) ∧
      ∃ outcome,
        (daemonLoop idorCandidate).verify "finding:0123456789abcdef" "oracle" none [] =
          (.ok outcome, []) ∧
        outcome.status = .inconclusive :=
  ⟨rfl, ⟨_, rfl, rfl⟩, rfl, _, rfl, rfl⟩

theorem oracle_paths_without_spec_idor :
    (∀ s s' status,
      daemonOracle.verifyOne findingLog idorFinding .idor "oracle" ⟨2026, 8, 13, 9, 30, 0, 0⟩ none s =
        (.ok status, s') → status = .refuted) ∧
    (daemonOracle.Working findingLog .idor → idorFinding.Candidate → ∀ s, ∃ s',
      daemonOracle.verifyOne findingLog idorFinding .idor "oracle" ⟨2026, 8, 13, 9, 30, 0, 0⟩ none s =
        (.ok .refuted, s')) ∧
    ∀ s t s' outcome,
      (daemonLoop idorCandidate).candidateProvider "finding:0123456789abcdef" s =
        (.ok (some idorCandidate), t) →
      (daemonLoop idorCandidate).verify "finding:0123456789abcdef" "oracle" none s = (.ok outcome, s') →
        (outcome.status ≠ .refuted ↔ idorCandidate.diff = none ∧
          ∃ method, defaultRegistry.methodFor idorCandidate.vulnType = some method ∧
            method.diffSemantic = true) :=
  oracle_paths_without_spec ⟨_, rfl, rfl⟩ ⟨_, rfl, rfl⟩ (by simp [idorCandidate]) (by decide)

end SecOpent
