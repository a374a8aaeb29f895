import Mathlib.Data.List.Count
import SecOpent.Python.Call
import SecOpent.Python.DateTime
import SecOpent.Python.Dict

/-!
# N out of N verification

`domain/verification/models.py` and `application/oracle.py`: a candidate is verified by a fixed number
of reproductions, each with a token of its own, and the verdict is read off the counts of successes
and of server errors.

## Main definitions

* `VerificationMethod`: the recipe of a vulnerability class, with its checked bounds
* `decideOutcome`: the verdict of the counts
* `OracleBackend.verify`: `OracleEngine.verify`, on any state of tokens and verifier

## Main results

* `tally_eq_count`: the loop counts the statuses that the reproductions returned
* `confirmed_iff`: the verdict is `confirmed` exactly if every reproduction succeeded
* `verify_refuted_only_by_failure`: when a refutation rests on a failure
-/

namespace SecOpent

open Python

/-! ## Methods and candidates -/

/-- `VulnType`. -/
inductive VulnType
  | sqli | rce | ssrf | xxe | xss | deserialization | fileRead | authBypass | pathTraversal | idor
  | paramTampering | mfaBypass | weakCredentials | privilegeEscalation
  deriving DecidableEq, Repr

/-- `VulnType.value`. -/
def VulnType.value : VulnType → String
  | .sqli => "sqli"
  | .rce => "rce"
  | .ssrf => "ssrf"
  | .xxe => "xxe"
  | .xss => "xss"
  | .deserialization => "deserialization"
  | .fileRead => "file_read"
  | .authBypass => "auth_bypass"
  | .pathTraversal => "path_traversal"
  | .idor => "idor"
  | .paramTampering => "param_tampering"
  | .mfaBypass => "mfa_bypass"
  | .weakCredentials => "weak_credentials"
  | .privilegeEscalation => "privilege_escalation"

/-- `VerificationStatus`. -/
inductive VerificationStatus
  | pending | confirmed | refuted | inconclusive
  deriving DecidableEq, Repr

/-- `VerificationStatus.value`. -/
def VerificationStatus.value : VerificationStatus → String
  | .pending => "pending"
  | .confirmed => "confirmed"
  | .refuted => "refuted"
  | .inconclusive => "inconclusive"

/-- `ReproductionStatus`. -/
inductive ReproductionStatus
  | success | failure | serverError
  deriving DecidableEq, Repr

/-- `VerificationMethod`, with the bounds of `__post_init__`; how reproductions are scheduled is left
out, no verdict depends on it. -/
structure VerificationMethod where
  vulnType : VulnType
  defaultN : ℕ
  serverErrorThreshold : ℕ := 2
  oobWindowSeconds : ℕ := 0
  echoEnabled : Bool := false
  diffSemantic : Bool := false
  one_le_defaultN : 1 ≤ defaultN
  one_le_threshold : 1 ≤ serverErrorThreshold
  not_both : ¬(echoEnabled = true ∧ diffSemantic = true)

/-- `CandidateFinding`; the kind of its differential specification is left open, as in the source. -/
structure CandidateFinding (Diff : Type) where
  id : String
  observationId : String
  vulnType : VulnType
  target : String
  status : VerificationStatus := .pending
  diff : Option Diff := none
  id_ne : id ≠ ""
  observationId_ne : observationId ≠ ""
  target_ne : target ≠ ""

/-- `DomainValidationError`, with its message. -/
inductive OracleError
  | validation (message : String)
  deriving DecidableEq

/-- The text of the exception. -/
def OracleError.text : OracleError → String
  | .validation message => message

/-- `CandidateFinding(…)`, with the checks of `__post_init__`. -/
def CandidateFinding.create {Diff : Type} (id observationId : String) (vulnType : VulnType)
    (target : String) (diff : Option Diff) : Except OracleError (CandidateFinding Diff) :=
  if hid : id = "" then .error (.validation "CandidateFinding.id must be non-empty")
  else if hobservation : observationId = "" then
    .error (.validation "CandidateFinding.observation_id must be non-empty")
  else if htarget : target = "" then
    .error (.validation "CandidateFinding.target must be non-empty")
  else
    .ok
      { id := id, observationId := observationId, vulnType := vulnType, target := target
        diff := diff, id_ne := hid, observationId_ne := hobservation, target_ne := htarget }

/-- `VerificationMethodRegistry`. -/
structure VerificationMethodRegistry where
  methods : Dict VulnType VerificationMethod

namespace VerificationMethodRegistry

/-- The loop of `__init__`: no vulnerability class has two methods. -/
def addAll : VerificationMethodRegistry → List VerificationMethod →
    Except OracleError VerificationMethodRegistry
  | registry, [] => .ok registry
  | registry, method :: methods =>
    match registry.methods.get? method.vulnType with
    | some _ =>
      .error (.validation
        ("duplicate verification method for vuln_type=" ++ method.vulnType.value))
    | none => addAll ⟨registry.methods.set method.vulnType method⟩ methods

/-- `__init__`. -/
def ofMethods (methods : List VerificationMethod) : Except OracleError VerificationMethodRegistry :=
  addAll ⟨.empty⟩ methods

variable (registry : VerificationMethodRegistry)

/-- `method_for`. -/
def methodFor (vulnType : VulnType) : Option VerificationMethod := registry.methods.get? vulnType

/-- `require_method`. -/
def requireMethod (vulnType : VulnType) : Except OracleError VerificationMethod :=
  match registry.methodFor vulnType with
  | some method => .ok method
  | none =>
    .error (.validation ("no verification method curated for vuln_type=" ++ vulnType.value))

end VerificationMethodRegistry

/-- A method of the default registry, with the fields that differ from their defaults. -/
def VerificationMethod.curated (vulnType : VulnType) (n : ℕ) (hn : 1 ≤ n) : VerificationMethod where
  vulnType := vulnType
  defaultN := n
  one_le_defaultN := hn
  one_le_threshold := by decide
  not_both := by simp

/-- An out-of-band method, with its window. -/
def VerificationMethod.curatedOob (vulnType : VulnType) (window : ℕ) : VerificationMethod :=
  { curated vulnType 3 (by decide) with oobWindowSeconds := window }

/-- A method that is confirmed by a difference. -/
def VerificationMethod.curatedDiff (vulnType : VulnType) : VerificationMethod :=
  { curated vulnType 3 (by decide) with
    diffSemantic := true
    not_both := by simp [curated] }

/-- The methods of `default_registry`. -/
def defaultMethods : List VerificationMethod :=
  [.curated .sqli 5 (by decide), .curated .rce 3 (by decide), .curatedOob .ssrf 30,
    .curatedOob .xxe 30,
    { VerificationMethod.curated .xss 3 (by decide) with
      echoEnabled := true
      not_both := by simp [VerificationMethod.curated] },
    .curatedOob .deserialization 30, .curated .fileRead 3 (by decide), .curatedDiff .authBypass,
    .curated .pathTraversal 3 (by decide), .curatedDiff .idor, .curated .paramTampering 3 (by decide),
    .curatedDiff .mfaBypass, .curated .weakCredentials 3 (by decide),
    .curatedDiff .privilegeEscalation]

/-- `default_registry`; its methods are of distinct classes, so nothing is raised. -/
def defaultRegistry : VerificationMethodRegistry :=
  (VerificationMethodRegistry.ofMethods defaultMethods).toOption.getD ⟨.empty⟩

/-- `VerificationResult`. -/
structure VerificationResult where
  status : VerificationStatus
  successes : ℕ
  attempts : ℕ
  reason : String
  deriving DecidableEq

/-! ## The verdict -/

/-- `decide_outcome`. -/
def decideOutcome (method : VerificationMethod) (successes attempts inconclusiveCount : ℕ) :
    VerificationStatus :=
  if method.defaultN ≤ successes then .confirmed
  else if method.defaultN ≤ attempts then
    if method.serverErrorThreshold ≤ inconclusiveCount then .inconclusive else .refuted
  else .pending

/-- The counters of the loop. -/
structure Tally where
  successes : ℕ := 0
  inconclusive : ℕ := 0
  attempts : ℕ := 0

/-- One reproduction. -/
def Tally.count (tally : Tally) : ReproductionStatus → Tally
  | .success => { tally with successes := tally.successes + 1, attempts := tally.attempts + 1 }
  | .serverError =>
    { tally with inconclusive := tally.inconclusive + 1, attempts := tally.attempts + 1 }
  | .failure => { tally with attempts := tally.attempts + 1 }

/-- The end of `verify`: the outcome with its reason. -/
def conclude (method : VerificationMethod) (tally : Tally) : VerificationResult :=
  let outcome := decideOutcome method tally.successes tally.attempts tally.inconclusive
  { status := outcome
    successes := tally.successes
    attempts := tally.attempts
    reason := outcome.value ++ ": " ++ toString tally.successes ++ "/" ++ toString tally.attempts ++
      " reproductions (" ++ toString tally.inconclusive ++ " server errors)" }

/-- The verdict on the statuses that the reproductions returned. -/
def verdict (method : VerificationMethod) (statuses : List ReproductionStatus) : VerificationResult :=
  conclude method (statuses.foldl Tally.count {})

/-! ## The engine -/

/-- The token manager and the verifier of an engine, at work on one candidate. -/
structure OracleBackend (σ : Type) where
  generate : Call σ Str
  reproduce : Str → Call σ ReproductionStatus

namespace OracleBackend

variable {σ : Type} (backend : OracleBackend σ)

/-- The loop of `verify`: each reproduction gets a token of its own. -/
def reproductions : ℕ → Call σ (List ReproductionStatus)
  | 0 => pure []
  | n + 1 => do
    let token ← backend.generate
    let status ← backend.reproduce token
    let statuses ← reproductions n
    pure (status :: statuses)

/-- `OracleEngine.verify`, once the method of the candidate is known. -/
def verify (method : VerificationMethod) : Call σ VerificationResult := do
  let statuses ← backend.reproductions method.defaultN
  pure (verdict method statuses)

variable {backend}

theorem length_of_reproductions {n : ℕ} {s s' : σ} {statuses : List ReproductionStatus}
    (h : backend.reproductions n s = (.ok statuses, s')) : statuses.length = n := by
  induction n generalizing s s' statuses with
  | zero =>
    cases h
    rfl
  | succ n ih =>
    obtain ⟨token, s₁, -, h⟩ := Call.bind_eq_ok.mp h
    obtain ⟨status, s₂, -, h⟩ := Call.bind_eq_ok.mp h
    obtain ⟨rest, s₃, hrest, h⟩ := Call.bind_eq_ok.mp h
    cases h
    simp [ih hrest]

/-- What every reproduction returns. -/
theorem forall_of_reproductions {status : ReproductionStatus}
    (hall : ∀ token, backend.reproduce token = pure status) {n : ℕ} {s s' : σ}
    {statuses : List ReproductionStatus} (h : backend.reproductions n s = (.ok statuses, s')) :
    ∀ other ∈ statuses, other = status := by
  induction n generalizing s s' statuses with
  | zero =>
    cases h
    simp
  | succ n ih =>
    obtain ⟨token, s₁, -, h⟩ := Call.bind_eq_ok.mp h
    obtain ⟨first, s₂, hfirst, h⟩ := Call.bind_eq_ok.mp h
    obtain ⟨rest, s₃, hrest, h⟩ := Call.bind_eq_ok.mp h
    cases h
    rw [hall token] at hfirst
    cases hfirst
    simpa using ih hrest

/-- `verify` raises nothing that its token manager and its verifier do not raise. -/
theorem verify_returns {method : VerificationMethod} (hgenerate : backend.generate.Returns)
    (hreproduce : ∀ token, (backend.reproduce token).Returns) : (backend.verify method).Returns := by
  have hreproductions : ∀ n, (backend.reproductions n).Returns := by
    intro n
    induction n with
    | zero => exact .pure []
    | succ n ih =>
      exact hgenerate.bind fun token => (hreproduce token).bind fun status => ih.bind fun statuses =>
        .pure (status :: statuses)
  exact (hreproductions method.defaultN).bind fun statuses => .pure (verdict method statuses)

end OracleBackend

/-- `ConfirmedFinding`, with the checks of `__post_init__`. -/
structure ConfirmedFinding where
  candidateId : String
  vulnType : VulnType
  evidenceIds : List String
  verifiedAt : DateTime
  successes : ℕ
  attempts : ℕ
  candidateId_ne : candidateId ≠ ""
  one_le_successes : 1 ≤ successes
  successes_le_attempts : successes ≤ attempts

/-- `OracleEngine.confirm`. -/
def confirm {Diff : Type} (candidate : CandidateFinding Diff) (result : VerificationResult)
    (evidenceIds : List String) (verifiedAt : DateTime) : Except OracleError ConfirmedFinding :=
  if result.status ≠ .confirmed then
    .error (.validation ("only a CONFIRMED oracle result can become a ConfirmedFinding (got " ++
      result.status.value ++ ")"))
  else if h₁ : result.successes < 1 then
    .error (.validation "ConfirmedFinding.successes must be >= 1")
  else if h₂ : result.attempts < result.successes then
    .error (.validation "ConfirmedFinding.attempts must be >= successes")
  else
    .ok ⟨candidate.id, candidate.vulnType, evidenceIds, verifiedAt, result.successes, result.attempts,
      candidate.id_ne, Nat.le_of_not_lt h₁, Nat.le_of_not_lt h₂⟩

/-! ## Counts -/

section Counts

variable {method : VerificationMethod} {statuses : List ReproductionStatus}

/-- The loop counts the statuses. -/
theorem tally_eq_count (tally : Tally) :
    statuses.foldl Tally.count tally =
      ⟨tally.successes + statuses.count .success, tally.inconclusive + statuses.count .serverError,
        tally.attempts + statuses.length⟩ := by
  induction statuses generalizing tally with
  | nil => rfl
  | cons status statuses ih =>
    rw [List.foldl_cons, ih]
    cases status <;> simp [Tally.count] <;> omega

theorem verdict_status :
    (verdict method statuses).status =
      decideOutcome method (statuses.count .success) statuses.length
        (statuses.count .serverError) := by
  simp [verdict, conclude, tally_eq_count]

/-- Every status is counted once. -/
theorem count_add_count_add_count (statuses : List ReproductionStatus) :
    statuses.count .success + statuses.count .serverError + statuses.count .failure =
      statuses.length := by
  induction statuses with
  | nil => rfl
  | cons status statuses ih => cases status <;> simp <;> omega

/-- **The verdict is `confirmed` exactly if every reproduction succeeded.** -/
theorem confirmed_iff (h : statuses.length = method.defaultN) :
    (verdict method statuses).status = .confirmed ↔ ∀ status ∈ statuses, status = .success := by
  have hall : statuses.count .success = statuses.length ↔ ∀ status ∈ statuses, status = .success := by
    rw [List.count_eq_length]
    exact forall₂_congr fun status _ => eq_comm
  have hle := List.count_le_length (a := ReproductionStatus.success) (l := statuses)
  rw [verdict_status, ← hall, decideOutcome]
  split_ifs with hsuccess herror <;> simp <;> omega

/-- The verdict is `refuted` exactly if a reproduction did not succeed and the server errors stay
below the threshold. -/
theorem refuted_iff (h : statuses.length = method.defaultN) :
    (verdict method statuses).status = .refuted ↔
      statuses.count .success < method.defaultN ∧
        statuses.count .serverError < method.serverErrorThreshold := by
  rw [verdict_status, decideOutcome]
  split_ifs with hsuccess hattempts herror <;> simp <;> omega

end Counts

/-- **When a refutation rests on a failure**: exactly when a reproduction failed, none met a server
error, or the server errors reach the threshold. -/
theorem verify_refuted_only_by_failure {σ : Type} {backend : OracleBackend σ}
    {method : VerificationMethod} {s s' : σ} {statuses : List ReproductionStatus}
    (h : backend.reproductions method.defaultN s = (.ok statuses, s')) :
    ∃ result, backend.verify method s = (.ok result, s') ∧
      ((result.status = .refuted → .failure ∈ statuses) ↔
        .failure ∈ statuses ∨ statuses.count .serverError = 0 ∨
          method.serverErrorThreshold ≤ statuses.count .serverError) := by
  have hlength := OracleBackend.length_of_reproductions h
  refine ⟨verdict method statuses, Call.bind_of_ok h, ?_⟩
  rw [refuted_iff hlength]
  have hcount := count_add_count_add_count statuses
  have hfailure : .failure ∈ statuses ↔ 0 < statuses.count .failure := List.count_pos_iff.symm
  constructor
  · intro hrefuted
    by_contra hnone
    simp only [not_or, not_le] at hnone
    refine hnone.1 (hrefuted ⟨?_, hnone.2.2⟩)
    omega
  · rintro (hmem | hzero | hthreshold) ⟨hsuccess, herror⟩
    · exact hmem
    · rw [hfailure]
      omega
    · omega

/-! ## A server error among successes -/

/-- Three reproductions, and two server errors for a review. -/
def threeReproductions : VerificationMethod where
  vulnType := .rce
  defaultN := 3
  one_le_defaultN := by decide
  one_le_threshold := by decide
  not_both := by decide

/-- The verifier that returns the given statuses in turn. -/
def scriptedBackend : OracleBackend (List ReproductionStatus) where
  generate := pure "token".toList
  reproduce _ := fun
    | [] => (.error "no status left", [])
    | status :: statuses => (.ok status, statuses)

/-- Two successes and a server error refute, although nothing failed. -/
theorem refuted_without_failure :
    ∃ result, scriptedBackend.verify threeReproductions [.success, .success, .serverError] =
        (.ok result, []) ∧
      result.status = .refuted ∧ .failure ∉ [ReproductionStatus.success, .success, .serverError] :=
  ⟨_, rfl, rfl, by decide⟩

/-- One status of each kind. -/
def mixedStatuses : List ReproductionStatus :=
  [.success, .serverError, .failure]

theorem verify_refuted_only_by_failure_once :
    ∃ result, scriptedBackend.verify threeReproductions mixedStatuses = (.ok result, []) ∧
      ((result.status = .refuted → .failure ∈ mixedStatuses) ↔
        .failure ∈ mixedStatuses ∨ mixedStatuses.count .serverError = 0 ∨
          threeReproductions.serverErrorThreshold ≤ mixedStatuses.count .serverError) :=
  verify_refuted_only_by_failure rfl

end SecOpent
