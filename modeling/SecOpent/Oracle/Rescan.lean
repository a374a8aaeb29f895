import SecOpent.Adapters.StepRunner
import SecOpent.Oracle.EntryPoints

/-!
# The rescan verifier

`infrastructure/oracle/rescan_verifier.py`: a candidate is reproduced by running its scan again. With a
callback channel the probe has to call back; with an echo placeholder the token has to be in the output
of the tool; otherwise an observation has to name the target, as a text that contains it or is
contained in it.

None of the three looks at the exit code. A tool that failed and a tool that found nothing are both a
failed reproduction, where the step runner takes the first for a worker that was not available.

## Main definitions

* `RescanVerifier.reproduce`: one reproduction, on the answers of the scan and the callback server
* `RescanVerifier.path`: which of the three paths it takes
* `RescanVerifier.backend`: the verifier under `OracleEngine`, one answer for each reproduction
* `RealScanResult.DidNotWork`: the tool exited with an error and observed nothing

## Main results

* `plain_scan_confirms_target`: without placeholders a candidate is confirmed by its target alone
* `failed_scan_refutes_iff`: when a scan that did not work is no failure
-/

namespace SecOpent

open Python

/-! ## Scans and their answers -/

/-- `RealScanResult`, without the adapter key. -/
structure RealScanResult where
  observations : List Observation
  exitCode : ℤ
  stdout : Str
  stderr : Str

/-- The result as the step runner sees it. -/
def RealScanResult.outcome (result : RealScanResult) : ScanOutcome :=
  .result result.observations result.exitCode result.stderr

/-- The tool exited with an error, or with the exit code of a timeout, and observed nothing. -/
def RealScanResult.DidNotWork (result : RealScanResult) : Prop :=
  result.exitCode ≠ 0 ∧ result.observations = []

/-- The timeout of the container executor. -/
def timedOut (message : Str) : RealScanResult := ⟨[], 124, [], message⟩

/-- What the outside answers in one reproduction: the domain that `register` allocates, the scan of
given arguments, and the labels that `poll` finds for a domain. -/
structure RescanAnswers where
  correlationDomain : Str
  scan : ScanKwargs → Except String RealScanResult
  labels : Str → List Str

namespace ScanKwargs

/-- `_contains`, of the values of the arguments. -/
def contains (kwargs : ScanKwargs) (marker : Str) : Bool :=
  decide (marker <:+: kwargs.adapterKey.toList) ||
    (kwargs.args.any fun arg => decide (marker <:+: arg)) ||
    kwargs.mounts.any fun mount => decide (marker <:+: mount.2)

/-- `_replace`, in the values of the arguments. -/
def replaced (kwargs : ScanKwargs) (marker replacement : Str) : ScanKwargs where
  adapterKey := String.ofList (replace kwargs.adapterKey.toList marker replacement)
  args := kwargs.args.map fun arg => replace arg marker replacement
  mounts := kwargs.mounts.map fun mount => (mount.1, replace mount.2 marker replacement)

/-- The arguments have no placeholder. -/
def Plain (kwargs : ScanKwargs) : Prop :=
  kwargs.contains oobPlaceholder = false ∧ kwargs.contains canaryPlaceholder = false

end ScanKwargs

/-! ## The verifier -/

/-- `RescanVerifier`; a token manager and a callback client may be wired. -/
structure RescanVerifier where
  scanKwargs : ScanKwargs
  canary : Bool
  interactsh : Bool

/-- The three reproduction paths. -/
inductive RescanPath
  | oob | echo | legacy
  deriving DecidableEq, Repr

/-- `has_callback`, with `collect`. -/
def RescanAnswers.hasCallback (answers : RescanAnswers) (token : Str) : Bool :=
  (answers.labels answers.correlationDomain).any fun label => label == token

/-- The observation names the target. -/
def Observation.names (observation : Observation) (target : String) : Bool :=
  decide (target = observation.assetIdentity) ||
    decide (target.toList <:+: observation.assetIdentity.toList) ||
    decide (observation.assetIdentity.toList <:+: target.toList)

namespace RescanVerifier

variable (verifier : RescanVerifier)

/-- The path that `reproduce` takes. -/
def path (method : VerificationMethod) (token : Str) : RescanPath :=
  if verifier.interactsh ∧ 0 < method.oobWindowSeconds ∧ token ≠ [] ∧
      verifier.scanKwargs.contains oobPlaceholder then .oob
  else if verifier.canary ∧ token ≠ [] ∧ verifier.scanKwargs.contains canaryPlaceholder then .echo
  else .legacy

/-- The arguments of the scan that a path runs. -/
def kwargsOn (answers : RescanAnswers) (token : Str) : RescanPath → ScanKwargs
  | .oob => verifier.scanKwargs.replaced oobPlaceholder
      (token ++ ".".toList ++ answers.correlationDomain)
  | .echo => verifier.scanKwargs.replaced canaryPlaceholder token
  | .legacy => verifier.scanKwargs

/-- `canary.verify_echo`. -/
def verifyEcho (H : Sha256) (stdout token : Str) : Call CanaryTokenManager Bool := fun manager =>
  match manager.verifyEcho H stdout token "oracle" with
  | .ok (hit, manager', _) => (.ok hit, manager')
  | .error (.tokenNotIssued message) | .error (.tokenReuse message) => (.error message, manager)

/-- What a path makes of the result of its scan. -/
def judge (H : Sha256) (answers : RescanAnswers) (candidate : CandidateFinding DiffObject)
    (token : Str) (result : RealScanResult) : RescanPath → Call CanaryTokenManager Bool
  | .oob => pure (answers.hasCallback token)
  | .echo => verifyEcho H result.stdout token
  -- Neither the exit code nor the class of an observation is looked at.
  | .legacy => pure (result.observations.any fun observation => observation.names candidate.target)

/-- `reproduce`. -/
def reproduce (H : Sha256) (answers : RescanAnswers) (candidate : CandidateFinding DiffObject)
    (method : VerificationMethod) (token : Str) : Call CanaryTokenManager ReproductionStatus := do
  let result ← .ofExcept id
    (answers.scan (verifier.kwargsOn answers token (verifier.path method token)))
  let reproduced ← judge H answers candidate token result (verifier.path method token)
  pure (if reproduced then .success else .failure)

/-! ## Under the engine -/

/-- The token manager, and the reproductions so far. -/
abbrev State := CanaryTokenManager × ℕ

/-- The verifier of an engine: reproduction `n` gets the answers `answers n`. -/
def backend {S : Type} (H : Sha256) (answers : ℕ → RescanAnswers) : OracleVerifier State S :=
  fun candidate method token _ (manager, n) =>
    let (result, manager') := verifier.reproduce H (answers n) candidate method token manager
    (result, (manager', n + 1))

/-- `generate`, where reproduction `n` draws `tokens n`. -/
def issue {S : Type} (tokens : ℕ → Str) : TokenSource State S := fun _ _ _ (manager, n) =>
  (.ok (tokens n), ({ manager with issued := insert (tokens n) manager.issued }, n))

/-- `OracleEngine` with this verifier. -/
def engine {S : Type} (H : Sha256) (answers : ℕ → RescanAnswers) (tokens : ℕ → Str)
    (registry : VerificationMethodRegistry) : OracleEngine State S :=
  ⟨registry, verifier.backend H answers, issue tokens⟩

variable {verifier} {H : Sha256} {answers : RescanAnswers} {candidate : CandidateFinding DiffObject}
  {method : VerificationMethod} {token : Str} {manager manager' : CanaryTokenManager}
  {status : ReproductionStatus}

/-- A reproduction succeeds or fails as the judgement on its scan says. -/
theorem reproduce_eq_ok :
    verifier.reproduce H answers candidate method token manager = (.ok status, manager') ↔
      ∃ result reproduced,
        answers.scan (verifier.kwargsOn answers token (verifier.path method token)) = .ok result ∧
        judge H answers candidate token result (verifier.path method token) manager =
          (.ok reproduced, manager') ∧
        status = if reproduced then .success else .failure := by
  unfold reproduce
  simp only [Call.bind_eq_ok, Call.ofExcept_eq_ok]
  constructor
  · rintro ⟨result, _, ⟨hscan, rfl⟩, reproduced, _, hjudge, hpure⟩
    cases hpure
    exact ⟨result, reproduced, hscan, hjudge, rfl⟩
  · rintro ⟨result, reproduced, hscan, hjudge, rfl⟩
    exact ⟨result, manager, ⟨hscan, rfl⟩, reproduced, manager', hjudge, rfl⟩

/-- No reproduction is a server error. -/
theorem reproduce_ne_serverError
    (h : verifier.reproduce H answers candidate method token manager = (.ok status, manager')) :
    status ≠ .serverError := by
  obtain ⟨result, reproduced, -, -, rfl⟩ := reproduce_eq_ok.mp h
  cases reproduced <;> decide

section Engine

variable {S : Type} {session : Option S} {answers : ℕ → RescanAnswers} {tokens : ℕ → Str}
  {actor : String} {statuses : List ReproductionStatus} {s' : State} {P : ℕ → Prop}

/-- The verifier of an engine at work on a candidate. -/
def backendOn (verifier : RescanVerifier) (H : Sha256) (answers : ℕ → RescanAnswers)
    (tokens : ℕ → Str) (candidate : CandidateFinding DiffObject) (method : VerificationMethod)
    (actor : String) (session : Option S) : OracleBackend State where
  generate := issue tokens actor candidate.id session
  reproduce token := verifier.backend H answers candidate method token session

/-- Every status of a verification is that of a reproduction with its own answers and token. -/
theorem reproduced_of_reproductions {m n : ℕ}
    (h : (backendOn verifier H answers tokens candidate method actor session).reproductions m
      (manager, n) = (.ok statuses, s')) :
    ∀ k < m, ∃ status, statuses[k]? = some status ∧ ∃ before after,
      verifier.reproduce H (answers (n + k)) candidate method (tokens (n + k)) before =
        (.ok status, after) := by
  induction m generalizing manager n statuses with
  | zero => exact fun k hk => absurd hk (Nat.not_lt_zero k)
  | succ m ih =>
    obtain ⟨token, t, hgenerate, h⟩ := Call.bind_eq_ok.mp h
    cases hgenerate
    obtain ⟨status, t', hreproduce, h⟩ := Call.bind_eq_ok.mp h
    obtain ⟨rest, t'', hrest, h⟩ := Call.bind_eq_ok.mp h
    cases h
    cases hreproduced : verifier.reproduce H (answers n) candidate method (tokens n)
      { manager with issued := insert (tokens n) manager.issued } with
    | mk result after =>
      simp only [backendOn, backend, hreproduced, Prod.mk.injEq] at hreproduce
      obtain ⟨rfl, rfl⟩ := hreproduce
      intro k hk
      cases k with
      | zero => exact ⟨status, rfl, _, after, hreproduced⟩
      | succ k =>
        obtain ⟨other, hother, before, after', hreproduced⟩ := ih hrest k (by omega)
        rw [Nat.add_assoc, Nat.add_comm 1 k] at hreproduced
        exact ⟨other, hother, before, after', hreproduced⟩

/-- **The verdict of the engine** where reproduction `n` succeeds exactly if `P n`. -/
theorem verify_status {n : ℕ} {registry : VerificationMethodRegistry} {result : VerificationResult}
    (hmethod : registry.methodFor candidate.vulnType = some method)
    (hP : ∀ k before status after, verifier.reproduce H (answers k) candidate method (tokens k) before =
      (.ok status, after) → (status = .success ↔ P k))
    (h : (verifier.engine H answers tokens registry).verify candidate actor session (manager, n) =
      (.ok result, s')) :
    (result.status = .confirmed ↔ ∀ k < method.defaultN, P (n + k)) ∧
      (result.status = .refuted ↔ ¬∀ k < method.defaultN, P (n + k)) := by
  have hrequire : registry.requireMethod candidate.vulnType = .ok method := by
    simp only [VerificationMethodRegistry.requireMethod, hmethod]
  rw [OracleEngine.verify,
    show (verifier.engine H answers tokens registry).registry = registry from rfl,
    hrequire] at h
  obtain ⟨_, _, hok, h⟩ := Call.bind_eq_ok.mp h
  cases hok
  obtain ⟨statuses, t, hstatuses, hpure⟩ := Call.bind_eq_ok.mp h
  cases hpure
  have hlength := OracleBackend.length_of_reproductions hstatuses
  have hreproduced := reproduced_of_reproductions
    (show (backendOn verifier H answers tokens candidate method actor session).reproductions
      method.defaultN (manager, n) = (.ok statuses, _) from hstatuses)
  -- Every status is that of a reproduction.
  have hfrom : ∀ status ∈ statuses, ∃ k < method.defaultN, ∃ before after,
      verifier.reproduce H (answers (n + k)) candidate method (tokens (n + k)) before =
        (.ok status, after) := by
    intro status hmem
    obtain ⟨k, hget⟩ := List.mem_iff_getElem?.mp hmem
    have hlt : k < method.defaultN := hlength ▸ (List.getElem?_eq_some_iff.mp hget).1
    obtain ⟨other, hother, before, after, hstatus⟩ := hreproduced k hlt
    rw [hget] at hother
    cases hother
    exact ⟨k, hlt, before, after, hstatus⟩
  have hall : (∀ status ∈ statuses, status = .success) ↔ ∀ k < method.defaultN, P (n + k) := by
    constructor
    · intro hsuccess k hk
      obtain ⟨status, hget, before, after, hstatus⟩ := hreproduced k hk
      exact (hP _ _ _ _ hstatus).mp (hsuccess status (List.mem_of_getElem? hget))
    · intro hk status hmem
      obtain ⟨k, hlt, before, after, hstatus⟩ := hfrom status hmem
      exact (hP _ _ _ _ hstatus).mpr (hk k hlt)
  have hnoError : statuses.count .serverError = 0 := by
    refine List.count_eq_zero.mpr fun hmem => ?_
    obtain ⟨k, -, before, after, hstatus⟩ := hfrom .serverError hmem
    exact reproduce_ne_serverError hstatus rfl
  refine ⟨(confirmed_iff hlength).trans hall, ?_⟩
  rw [refuted_iff hlength, hnoError, ← hall]
  have hcount : statuses.count .success = method.defaultN ↔
      ∀ status ∈ statuses, status = .success := by
    rw [← hlength, List.count_eq_length]
    exact forall₂_congr fun status _ => eq_comm
  have hle := List.count_le_length (a := ReproductionStatus.success) (l := statuses)
  have hpos := method.one_le_threshold
  rw [← hcount]
  omega

end Engine

/-! ## Without placeholders -/

section Plain

variable {S : Type} {session : Option S} {answers : ℕ → RescanAnswers} {tokens : ℕ → Str}
  {actor : String} {s' : State}

theorem path_of_plain (h : verifier.scanKwargs.Plain) (method : VerificationMethod) (token : Str) :
    verifier.path method token = .legacy := by
  simp [path, h.1, h.2]

/-- The rescan names the target: an observation of it is a text that contains the target, or is
contained in it. -/
def NamesTarget (verifier : RescanVerifier) (answers : RescanAnswers) (target : String) : Prop :=
  ∃ result, answers.scan verifier.scanKwargs = .ok result ∧
    ∃ observation ∈ result.observations, observation.names target = true

/-- A reproduction without placeholders succeeds exactly if the rescan names the target. -/
theorem reproduce_success_iff_of_plain (hplain : verifier.scanKwargs.Plain) {answers : RescanAnswers}
    (h : verifier.reproduce H answers candidate method token manager = (.ok status, manager')) :
    status = .success ↔ verifier.NamesTarget answers candidate.target := by
  obtain ⟨result, reproduced, hscan, hjudge, rfl⟩ := reproduce_eq_ok.mp h
  rw [path_of_plain hplain] at hscan hjudge
  cases hjudge
  have hnames : verifier.NamesTarget answers candidate.target ↔
      ∃ observation ∈ result.observations, observation.names candidate.target = true := by
    constructor
    · rintro ⟨other, hother, hnamed⟩
      rw [show answers.scan verifier.scanKwargs = .ok result from hscan] at hother
      cases hother
      exact hnamed
    · exact fun hnamed => ⟨result, hscan, hnamed⟩
  rw [hnames, ← List.any_eq_true]
  cases result.observations.any fun observation => observation.names candidate.target <;> simp

/-- **Without placeholders a candidate is confirmed by its target alone.** A reproduction succeeds
exactly if the rescan names the target, and the engine confirms exactly if each of the N rescans does;
the class of the candidate, its port and its path are not looked at. -/
theorem plain_scan_confirms_target {n : ℕ} {registry : VerificationMethodRegistry}
    {answers : ℕ → RescanAnswers} (hplain : verifier.scanKwargs.Plain) :
    (∀ k method token before status after,
      verifier.reproduce H (answers k) candidate method token before = (.ok status, after) →
        (status = .success ↔ verifier.NamesTarget (answers k) candidate.target)) ∧
      ∀ method result, registry.methodFor candidate.vulnType = some method →
        (verifier.engine H answers tokens registry).verify candidate actor session (manager, n) =
          (.ok result, s') →
        (result.status = .confirmed ↔
          ∀ k < method.defaultN, verifier.NamesTarget (answers (n + k)) candidate.target) := by
  refine ⟨fun k method token before status after h => reproduce_success_iff_of_plain hplain h, ?_⟩
  intro method result hmethod h
  exact (verify_status (P := fun k => verifier.NamesTarget (answers k) candidate.target) hmethod
    (fun k before status after => reproduce_success_iff_of_plain hplain) h).1

/-- The text after the scheme of a URL. -/
def schemeless (text : Str) : Str :=
  if startsWith text "http://".toList then text.drop 7
  else if startsWith text "https://".toList then text.drop 8
  else text

/-- The host, the port and the path that an asset names; a port or a path may be empty. -/
def assetName (text : Str) : Str × Str × Str :=
  let authority := (schemeless text).takeWhile (· ≠ '/')
  (authority.takeWhile (· ≠ ':'), (authority.dropWhile (· ≠ ':')).drop 1,
    (schemeless text).dropWhile (· ≠ '/'))

/-- The observation is on the asset that the target names. -/
def OnAsset (target : String) (observation : Observation) : Prop :=
  let (host, port, path) := assetName target.toList
  let (host', port', path') := assetName observation.assetIdentity.toList
  host' = host ∧ (port ≠ [] → port' = port) ∧ (path ≠ [] → path' = path)

instance (target : String) (observation : Observation) : Decidable (OnAsset target observation) :=
  inferInstanceAs (Decidable (_ ∧ _ ∧ _))

/-- The observation reports a weakness of the class. -/
def Reports (observation : Observation) (vulnType : VulnType) : Prop :=
  ∃ cwe ∈ observation.cwe, vulnTypeForCwe cwe = some vulnType

/-- A rescan of a URL. -/
def plainVerifier : RescanVerifier where
  scanKwargs := { args := ["-u".toList, "http://shop.example/cart".toList], mounts := none }
  canary := true
  interactsh := false

theorem plainVerifier_plain : plainVerifier.scanKwargs.Plain :=
  ⟨by decide +kernel, by decide +kernel⟩

/-- An injection in the cart of a shop. -/
def cartCandidate : CandidateFinding DiffObject where
  id := "f1"
  observationId := "o1"
  vulnType := .sqli
  target := "http://shop.example/cart"
  id_ne := by decide
  observationId_ne := by decide
  target_ne := by decide

/-- The rescan finds a missing header on another host, the name of which is a part of the target. -/
def otherHostAnswers : RescanAnswers where
  correlationDomain := "oast".toList
  scan _ := .ok ⟨[⟨"o2", "shop", "missing header", .low, [], [], []⟩], 0, [], []⟩
  labels _ := []

/-- One reproduction. -/
def sqliMethod : VerificationMethod := .curated .sqli 1 (by decide)

/-- An unrelated finding on another host is a success. -/
theorem other_host_reproduces :
    ¬∀ (verifier : RescanVerifier) (H : Sha256) (answers : RescanAnswers)
        (candidate : CandidateFinding DiffObject) (method : VerificationMethod) (token : Str)
        (before after : CanaryTokenManager), verifier.scanKwargs.Plain →
      verifier.reproduce H answers candidate method token before = (.ok .success, after) →
      ∃ result, answers.scan verifier.scanKwargs = .ok result ∧
        ∃ observation ∈ result.observations,
          OnAsset candidate.target observation ∧ Reports observation candidate.vulnType := by
  intro h
  obtain ⟨result, hscan, observation, hmem, hasset, -⟩ :=
    h plainVerifier OracleSystem.tokenDigest otherHostAnswers cartCandidate sqliMethod
      OracleSystem.firstToken {} {} plainVerifier_plain rfl
  cases hscan
  obtain rfl := List.mem_singleton.mp hmem
  revert hasset
  decide +kernel

/-- The engine on a rescan of the cart, with the same answers for every reproduction. -/
def cartEngine (answers : RescanAnswers) : OracleEngine State Unit :=
  plainVerifier.engine OracleSystem.tokenDigest (fun _ => answers) (fun _ => OracleSystem.firstToken)
    ((VerificationMethodRegistry.ofMethods [sqliMethod]).toOption.getD ⟨.empty⟩)

/-- It confirms the injection as well. -/
theorem other_host_confirms :
    ∃ result s', (cartEngine otherHostAnswers).verify cartCandidate "oracle" none ({}, 0) =
        (.ok result, s') ∧
      result.status = .confirmed := by
  obtain ⟨result, s', h⟩ : ∃ result s', (cartEngine otherHostAnswers).verify cartCandidate "oracle"
      none ({}, 0) = (.ok result, s') := ⟨_, _, rfl⟩
  refine ⟨result, s', h, ?_⟩
  refine ((plain_scan_confirms_target plainVerifier_plain).2 sqliMethod result rfl h).mpr ?_
  intro k _
  exact ⟨_, rfl, _, List.mem_singleton_self _, by decide +kernel⟩

end Plain

/-! ## Scans that did not work -/

section Failed

variable {S : Type} {session : Option S} {answers : ℕ → RescanAnswers} {tokens : ℕ → Str}
  {actor : String} {s' : State}

/-- What is seen of the token although the scan did not work: a callback on the first path, the token
in the output of the tool on the second, and nothing on the third. -/
def SeesToken (verifier : RescanVerifier) (answers : RescanAnswers) (method : VerificationMethod)
    (token : Str) : Prop :=
  match verifier.path method token with
  | .oob => token ∈ answers.labels answers.correlationDomain
  | .echo => ∃ result, answers.scan (verifier.kwargsOn answers token .echo) = .ok result ∧
      token <:+: result.stdout
  | .legacy => False

/-- A scan that did not work is no failure exactly if the token is seen. -/
theorem reproduce_success_iff_of_didNotWork {answers : RescanAnswers}
    (hfailed : ∀ kwargs result, answers.scan kwargs = .ok result → result.DidNotWork)
    (h : verifier.reproduce H answers candidate method token manager = (.ok status, manager')) :
    status = .success ↔ verifier.SeesToken answers method token := by
  obtain ⟨result, reproduced, hscan, hjudge, rfl⟩ := reproduce_eq_ok.mp h
  have hsuccess : (if reproduced then ReproductionStatus.success else .failure) = .success ↔
      reproduced = true := by
    cases reproduced <;> decide
  rw [hsuccess, SeesToken]
  cases hpath : verifier.path method token with
  | oob =>
    rw [hpath] at hjudge
    cases hjudge
    simp [RescanAnswers.hasCallback]
  | echo =>
    rw [hpath] at hscan hjudge
    have hecho : reproduced = decide (token <:+: result.stdout) := by
      simp only [judge, verifyEcho] at hjudge
      split at hjudge
      next hit after entry hverify =>
        cases hjudge
        exact (CanaryTokenManager.verifyEcho_ok_iff.mp hverify).2.2.1
      next => cases hjudge
      next => cases hjudge
    rw [hecho, decide_eq_true_iff]
    constructor
    · exact fun hinfix => ⟨result, hscan, hinfix⟩
    · rintro ⟨other, hother, hinfix⟩
      rw [hscan] at hother
      cases hother
      exact hinfix
  | legacy =>
    rw [hpath] at hjudge
    cases hjudge
    simp [(hfailed _ _ hscan).2]

/-- **When a scan that did not work is no failure**: exactly when the token is seen all the same. And
the engine does not refute on such scans exactly if it is seen in each of them. -/
theorem failed_scan_refutes_iff {n : ℕ} {registry : VerificationMethodRegistry}
    (hfailed : ∀ k kwargs result, (answers k).scan kwargs = .ok result → result.DidNotWork) :
    (∀ k method token before status after,
      verifier.reproduce H (answers k) candidate method token before = (.ok status, after) →
        (status ≠ .failure ↔ verifier.SeesToken (answers k) method token)) ∧
      ∀ method result, registry.methodFor candidate.vulnType = some method →
        (verifier.engine H answers tokens registry).verify candidate actor session (manager, n) =
          (.ok result, s') →
        (result.status ≠ .refuted ↔
          ∀ k < method.defaultN, verifier.SeesToken (answers (n + k)) method (tokens (n + k))) := by
  constructor
  · intro k method token before status after h
    rw [← reproduce_success_iff_of_didNotWork (hfailed k) h]
    have hne := reproduce_ne_serverError h
    cases status with
    | success => decide
    | failure => decide
    | serverError => exact absurd rfl hne
  · intro method result hmethod h
    have hverdict := (verify_status (P := fun k => verifier.SeesToken (answers k) method (tokens k))
      hmethod (fun k before status after => reproduce_success_iff_of_didNotWork (hfailed k)) h).2
    rw [Ne, hverdict, not_not]

/-- The container executor stops every scan. -/
def timeoutAnswers : RescanAnswers where
  correlationDomain := "oast".toList
  scan _ := .ok (timedOut "execution timeout after 600s".toList)
  labels _ := []

/-- A scan that was stopped is a failed reproduction. -/
theorem timeout_is_failure :
    ¬∀ (verifier : RescanVerifier) (H : Sha256) (answers : RescanAnswers)
        (candidate : CandidateFinding DiffObject) (method : VerificationMethod) (token : Str)
        (before after : CanaryTokenManager) (status : ReproductionStatus),
      (∀ kwargs result, answers.scan kwargs = .ok result → result.DidNotWork) →
      verifier.reproduce H answers candidate method token before = (.ok status, after) →
      status ≠ .failure := by
  intro h
  refine h plainVerifier OracleSystem.tokenDigest timeoutAnswers cartCandidate sqliMethod
    OracleSystem.firstToken {} {} .failure ?_ rfl rfl
  intro kwargs result hscan
  cases hscan
  exact ⟨by decide, rfl⟩

/-- And it refutes the injection. -/
theorem timeout_refutes :
    ∃ result s', (cartEngine timeoutAnswers).verify cartCandidate "oracle" none ({}, 0) =
        (.ok result, s') ∧
      result.status = .refuted := by
  obtain ⟨result, s', h⟩ : ∃ result s', (cartEngine timeoutAnswers).verify cartCandidate "oracle"
      none ({}, 0) = (.ok result, s') := ⟨_, _, rfl⟩
  refine ⟨result, s', h, ?_⟩
  by_contra hne
  have hfailed : ∀ (_ : ℕ) kwargs result, timeoutAnswers.scan kwargs = .ok result →
      result.DidNotWork := by
    intro _ kwargs result hscan
    cases hscan
    exact ⟨by decide, rfl⟩
  exact ((failed_scan_refutes_iff hfailed).2 sqliMethod result rfl h).mp hne 0 (by decide)

end Failed

end RescanVerifier

end SecOpent
