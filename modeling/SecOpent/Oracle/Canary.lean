import Mathlib.Data.Finset.Insert
import Mathlib.Data.List.Infix
import SecOpent.Audit.Events
import SecOpent.Oracle.Verification
import SecOpent.Transition.Runs

/-!
# Canary tokens

`application/canary.py` under `application/oracle.py`: every reproduction is given a token of its
own, and a token is verified once. The system is one token manager with any number of
verifications in progress: the verifiers, and whoever else holds the manager, call it between any
two steps of a verification.

## Main definitions

* `CanaryTokenManager.generate`, `embed`, `oobSubdomain`, `verifyEcho`
* `OracleSystem`, `OracleCall`, `OracleSystem.step`: the manager, the verifications and their calls
* `OracleSystem.Consistent`: what the records of a run say of the manager

## Main results

* `generate_spec`, `verifyEcho_ok_iff`: one call
* `Consistent.step`: every call keeps the records consistent
* `oracle_tokens_single_use`: the verdicts and the tokens of every run
-/

namespace SecOpent

open Python Transition

/-! ## The token manager -/

/-- The errors of the token manager. -/
inductive CanaryError
  | tokenNotIssued (message : String)
  | tokenReuse (message : String)
  deriving DecidableEq

/-- `CANARY_PLACEHOLDER`. -/
def canaryPlaceholder : Str := "\x7b\x7bcanary_token\x7d\x7d".toList

/-- `_AUDIT_PREFIX_LEN`. -/
def auditPrefixLen : ℕ := 8

/-- `_audit_id`. -/
def canaryAuditId (H : Sha256) (token : Str) : Str :=
  "canary:".toList ++ token.take auditPrefixLen ++ ":".toList ++ (H.hexdigest token).take 12

/-- The arguments of a call of the audit recorder. -/
structure CanaryAudit where
  actor : String
  action : String
  resourceId : Str
  payload : List (String × Json)

/-- `CanaryTokenManager`. -/
structure CanaryTokenManager where
  oobDomain : Str := "oast.example.com".toList
  issued : Finset Str := ∅
  consumed : Finset Str := ∅

namespace CanaryTokenManager

variable (manager : CanaryTokenManager)

/-- `generate`, on the values that `secrets.token_urlsafe(16)` returns in turn: the first one that
was not issued before. `none` is a loop that needs more values. -/
def generate (H : Sha256) (draws : List Str) (actor candidateId : String) :
    Option (Str × CanaryTokenManager × CanaryAudit) :=
  (draws.find? fun token => token ∉ manager.issued).map fun token =>
    (token, { manager with issued := insert token manager.issued },
      { actor := actor
        action := "canary.generated"
        resourceId := canaryAuditId H token
        payload := [("candidate_id", .text candidateId)] })

/-- `_require_issued`. -/
def requireIssued (token : Str) : Except CanaryError Unit :=
  if token ∉ manager.issued then .error (.tokenNotIssued "canary token was never issued") else .ok ()

/-- `_require_not_consumed`. -/
def requireNotConsumed (token : Str) : Except CanaryError Unit :=
  if token ∈ manager.consumed then
    .error (.tokenReuse "canary token is single-use and already consumed")
  else .ok ()

/-- `embed`. -/
def embed (template token : Str) : Except CanaryError Str := do
  manager.requireIssued token
  .ok (replace template canaryPlaceholder token)

/-- `oob_subdomain`. -/
def oobSubdomain (token : Str) : Except CanaryError Str := do
  manager.requireIssued token
  .ok (token ++ ".".toList ++ manager.oobDomain)

/-- `verify_echo`. -/
def verifyEcho (H : Sha256) (response token : Str) (actor : String) :
    Except CanaryError (Bool × CanaryTokenManager × CanaryAudit) := do
  manager.requireIssued token
  manager.requireNotConsumed token
  let hit := decide (token <:+: response)
  .ok (hit, { manager with consumed := insert token manager.consumed },
    { actor := actor
      action := "canary.verified"
      resourceId := canaryAuditId H token
      payload := [("hit", .bool hit)] })

variable {manager} {H : Sha256} {manager' : CanaryTokenManager} {entry : CanaryAudit}
  {token response : Str} {actor : String}

/-- A generated token is new, and issued from now on. -/
theorem generate_spec {draws : List Str} {candidateId : String}
    (h : manager.generate H draws actor candidateId = some (token, manager', entry)) :
    token ∈ draws ∧ token ∉ manager.issued ∧
      manager' = { manager with issued := insert token manager.issued } := by
  obtain ⟨found, hfound, heq⟩ := Option.map_eq_some_iff.mp h
  cases heq
  refine ⟨List.mem_of_find?_eq_some hfound, ?_, rfl⟩
  simpa using List.find?_some hfound

/-- `generate` returns as soon as a value was not issued before. -/
theorem generate_isSome {draws : List Str} {candidateId : String} (hmem : token ∈ draws)
    (hnew : token ∉ manager.issued) :
    (manager.generate H draws actor candidateId).isSome = true := by
  rw [generate, Option.isSome_map, List.find?_isSome]
  exact ⟨token, hmem, by simpa using hnew⟩

/-- `verify_echo` returns for exactly the issued tokens that are not consumed, and consumes them. -/
theorem verifyEcho_ok_iff {hit : Bool} :
    manager.verifyEcho H response token actor = .ok (hit, manager', entry) ↔
      token ∈ manager.issued ∧ token ∉ manager.consumed ∧ hit = decide (token <:+: response) ∧
        manager' = { manager with consumed := insert token manager.consumed } ∧
        entry = ⟨actor, "canary.verified", canaryAuditId H token, [("hit", .bool hit)]⟩ := by
  unfold verifyEcho requireIssued requireNotConsumed
  by_cases hissued : token ∈ manager.issued
  · by_cases hconsumed : token ∈ manager.consumed
    · simp [hissued, hconsumed, bind, Except.bind]
    · simp only [hissued, hconsumed, bind, Except.bind, not_true_eq_false, if_false, not_false_eq_true,
        true_and, Except.ok.injEq, Prod.mk.injEq]
      constructor
      · rintro ⟨rfl, rfl, rfl⟩
        exact ⟨rfl, rfl, rfl⟩
      · rintro ⟨rfl, rfl, rfl⟩
        exact ⟨rfl, rfl, rfl⟩
  · simp [hissued, bind, Except.bind]

end CanaryTokenManager

/-! ## Verifications on one manager -/

/-- Where a call of `verify` stands. -/
inductive VerifyPhase
  | drawing
  | reproducing (token : Str)
  | returned (result : VerificationResult)
  | raised
  deriving DecidableEq

/-- A call of `OracleEngine.verify`: its method, counters and remaining reproductions, and as a
record the statuses that were reported to it. -/
structure Verification where
  actor : String
  candidateId : String
  method : VerificationMethod
  remaining : ℕ
  tally : Tally := {}
  phase : VerifyPhase := .drawing
  statuses : List ReproductionStatus := []

namespace Verification

/-- The call after its reproduction returned. -/
def report (v : Verification) (status : ReproductionStatus) : Verification :=
  let tally := v.tally.count status
  { v with
    remaining := v.remaining - 1
    tally := tally
    phase := if v.remaining - 1 = 0 then .returned (conclude v.method tally) else .drawing
    statuses := v.statuses ++ [status] }

/-- The call returned a result with this status. -/
def Returns (v : Verification) (status : VerificationStatus) : Prop :=
  ∃ result, v.phase = .returned result ∧ result.status = status

end Verification

/-- A step of the system: a call of the engine or of the manager, or the end of a reproduction. The
audit recorder may raise (`recorded` is false), and so may a verifier (`status` is `none`). -/
inductive OracleCall (Diff : Type)
  | verify (registry : VerificationMethodRegistry) (candidate : CandidateFinding Diff) (actor : String)
  | draw (i : ℕ) (draws : List Str) (recorded : Bool)
  | reproduced (i : ℕ) (status : Option ReproductionStatus)
  | generate (draws : List Str) (actor candidateId : String)
  | embed (template token : Str)
  | oobSubdomain (token : Str)
  | verifyEcho (response token : Str) (actor : String) (recorded : Bool)

/-- The token manager and the calls of `verify` on it, with records of the tokens issued, of those
given to reproductions, and of those for which `verify_echo` returned true. -/
structure OracleSystem where
  canary : CanaryTokenManager := {}
  verifications : List Verification := []
  minted : List Str := []
  given : List Str := []
  echoed : List Str := []

namespace OracleSystem

variable {Diff : Type} (H : Sha256)

/-- One step. -/
def step (s : OracleSystem) : OracleCall Diff → Option OracleSystem
  | .verify registry candidate actor =>
    match registry.requireMethod candidate.vulnType with
    | .error _ => some s
    | .ok method =>
      let v : Verification :=
        { actor := actor, candidateId := candidate.id, method := method, remaining := method.defaultN }
      some { s with verifications := s.verifications ++ [v] }
  | .draw i draws recorded =>
    match s.verifications[i]? with
    | some v =>
      if v.phase = .drawing then
        (s.canary.generate H draws v.actor v.candidateId).map fun (token, canary, _) =>
          -- The token is issued before the recorder is called.
          { s with
            canary := canary
            minted := s.minted ++ [token]
            given := if recorded then s.given ++ [token] else s.given
            verifications := s.verifications.set i
              { v with phase := if recorded then .reproducing token else .raised } }
      else none
    | none => none
  | .reproduced i status =>
    match s.verifications[i]? with
    | some v =>
      match v.phase with
      | .reproducing _ =>
        some { s with
          verifications := s.verifications.set i
            (match status with
            | some status => v.report status
            | none => { v with phase := .raised }) }
      | _ => none
    | none => none
  | .generate draws actor candidateId =>
    (s.canary.generate H draws actor candidateId).map fun (token, canary, _) =>
      { s with canary := canary, minted := s.minted ++ [token] }
  | .embed _ _ => some s
  | .oobSubdomain _ => some s
  | .verifyEcho response token actor recorded =>
    match s.canary.verifyEcho H response token actor with
    | .error _ => some s
    | .ok (hit, canary, _) =>
      some { s with
        canary := canary
        echoed := if hit && recorded then s.echoed ++ [token] else s.echoed }

end OracleSystem

/-! ## What every call preserves -/

/-- The counters of a call of `verify` are those of the statuses reported to it, and it has returned
exactly if all of them were. -/
structure Verification.WellRun (v : Verification) : Prop where
  tally : v.tally = v.statuses.foldl Tally.count {}
  phase : match v.phase with
    | .returned result => v.statuses.length = v.method.defaultN ∧ result = verdict v.method v.statuses
    | .raised => v.statuses.length < v.method.defaultN
    | _ => 1 ≤ v.remaining ∧ v.statuses.length + v.remaining = v.method.defaultN

namespace Verification.WellRun

variable {v : Verification}

theorem start (actor candidateId : String) (method : VerificationMethod) :
    WellRun { actor := actor, candidateId := candidateId, method := method,
              remaining := method.defaultN } :=
  ⟨rfl, method.one_le_defaultN, by simp⟩

/-- A call that has not returned or raised lacks a status. -/
theorem length_lt (h : v.WellRun) (hphase : ∀ result, v.phase ≠ .returned result) :
    v.statuses.length < v.method.defaultN := by
  have hp := h.phase
  split at hp
  next result heq => exact absurd heq (hphase result)
  next => exact hp
  next => omega

theorem raised (h : v.WellRun) (hphase : ∀ result, v.phase ≠ .returned result) :
    WellRun { v with phase := .raised } :=
  ⟨h.tally, h.length_lt hphase⟩

theorem reproducing (h : v.WellRun) (hphase : v.phase = .drawing) (token : Str) :
    WellRun { v with phase := .reproducing token } := by
  have hp := h.phase
  rw [hphase] at hp
  exact ⟨h.tally, hp⟩

theorem report (h : v.WellRun) {token : Str} (hphase : v.phase = .reproducing token)
    (status : ReproductionStatus) : (v.report status).WellRun := by
  have hp := h.phase
  rw [hphase] at hp
  have htally : v.tally.count status = (v.statuses ++ [status]).foldl Tally.count {} := by
    rw [List.foldl_append, ← h.tally]
    rfl
  refine ⟨htally, ?_⟩
  -- The loop ends with the reproduction that leaves none.
  simp only [Verification.report]
  split_ifs with hlast
  · refine ⟨?_, by rw [htally]; rfl⟩
    rw [List.length_append, List.length_singleton]
    omega
  · refine ⟨by omega, ?_⟩
    rw [List.length_append, List.length_singleton]
    omega

/-- **A call returns `confirmed` exactly if all its reproductions succeeded.** -/
theorem returns_confirmed_iff (h : v.WellRun) :
    v.Returns .confirmed ↔
      v.statuses.length = v.method.defaultN ∧ ∀ status ∈ v.statuses, status = .success := by
  constructor
  · rintro ⟨result, hphase, hstatus⟩
    have hp := h.phase
    rw [hphase] at hp
    obtain ⟨hlength, rfl⟩ := hp
    exact ⟨hlength, (confirmed_iff hlength).mp hstatus⟩
  · rintro ⟨hlength, hall⟩
    have hreturned : ∃ result, v.phase = .returned result := by
      by_contra hnone
      have hlt := h.length_lt fun result heq => hnone ⟨result, heq⟩
      omega
    obtain ⟨result, hphase⟩ := hreturned
    have hp := h.phase
    rw [hphase] at hp
    obtain ⟨-, rfl⟩ := hp
    exact ⟨_, hphase, (confirmed_iff hlength).mpr hall⟩

end Verification.WellRun

namespace OracleSystem

/-- What the records say of the manager: the tokens issued are those recorded, the tokens given are
some of them, and an echo was reported for consumed tokens only. -/
structure Consistent (s : OracleSystem) : Prop where
  issued : ∀ token, token ∈ s.canary.issued ↔ token ∈ s.minted
  minted_nodup : s.minted.Nodup
  given : s.given.Sublist s.minted
  echoed : ∀ token ∈ s.echoed, token ∈ s.canary.consumed
  echoed_nodup : s.echoed.Nodup
  verifications : ∀ v ∈ s.verifications, v.WellRun

namespace Consistent

variable {Diff : Type} {H : Sha256} {s s' : OracleSystem} {canary : CanaryTokenManager}
  {token : Str}

theorem init (oobDomain : Str) : Consistent { canary := { oobDomain := oobDomain } } where
  issued := by simp
  minted_nodup := List.nodup_nil
  given := List.Sublist.refl _
  echoed := by simp
  echoed_nodup := List.nodup_nil
  verifications := by simp

/-- A call of `verify` came, or moved. -/
theorem of_verifications (h : s.Consistent) {verifications : List Verification}
    (hv : ∀ v ∈ verifications, v.WellRun) :
    Consistent { s with verifications := verifications } :=
  ⟨h.issued, h.minted_nodup, h.given, h.echoed, h.echoed_nodup, hv⟩

/-- A token was issued, and may have been given to a reproduction. -/
theorem mint (h : s.Consistent) (hnew : token ∉ s.canary.issued)
    (hcanary : canary = { s.canary with issued := insert token s.canary.issued }) (toGive : Bool) :
    Consistent { s with
      canary := canary
      minted := s.minted ++ [token]
      given := if toGive then s.given ++ [token] else s.given } := by
  subst hcanary
  have hnot : token ∉ s.minted := fun hmem => hnew ((h.issued token).mpr hmem)
  refine ⟨?_, ?_, ?_, h.echoed, h.echoed_nodup, h.verifications⟩
  · intro other
    simp [h.issued, or_comm]
  · rw [List.nodup_append_comm]
    exact List.nodup_cons.mpr ⟨hnot, h.minted_nodup⟩
  · cases toGive with
    | false => exact h.given.trans (List.sublist_append_left _ _)
    | true => exact h.given.append (List.Sublist.refl _)

/-- A token was consumed, and its echo may have been reported. -/
theorem consume (h : s.Consistent) (hnew : token ∉ s.canary.consumed)
    (hcanary : canary = { s.canary with consumed := insert token s.canary.consumed })
    (reported : Bool) :
    Consistent { s with
      canary := canary
      echoed := if reported then s.echoed ++ [token] else s.echoed } := by
  subst hcanary
  refine ⟨h.issued, h.minted_nodup, h.given, ?_, ?_, h.verifications⟩
  · intro other hother
    cases reported with
    | false => exact Finset.mem_insert_of_mem (h.echoed other hother)
    | true =>
      rcases List.mem_append.mp hother with hother | hother
      · exact Finset.mem_insert_of_mem (h.echoed other hother)
      · rw [List.mem_singleton.mp hother]
        exact Finset.mem_insert_self _ _
  · cases reported with
    | false => exact h.echoed_nodup
    | true =>
      rw [if_pos rfl, List.nodup_append_comm]
      exact List.nodup_cons.mpr ⟨fun hmem => hnew (h.echoed token hmem), h.echoed_nodup⟩

/-- **Every call keeps the records consistent.** -/
theorem step {call : OracleCall Diff} (h : s.Consistent) (hstep : s.step H call = some s') :
    s'.Consistent := by
  cases call with
  | verify registry candidate actor =>
    simp only [OracleSystem.step] at hstep
    split at hstep
    · -- No method for the class: the call raises before it draws a token.
      cases hstep
      exact h
    next method _ =>
      cases hstep
      refine h.of_verifications fun v hv => ?_
      rcases List.mem_append.mp hv with hv | hv
      · exact h.verifications v hv
      · rw [List.mem_singleton.mp hv]
        exact Verification.WellRun.start actor candidate.id method
  | draw i draws recorded =>
    -- A new token is issued; it is given to the reproduction unless the recorder raises.
    simp only [OracleSystem.step] at hstep
    split at hstep
    next v hv =>
      have hphase : v.phase = .drawing := by
        by_contra hphase
        rw [if_neg hphase] at hstep
        cases hstep
      rw [if_pos hphase] at hstep
      obtain ⟨⟨token, canary, entry⟩, hgenerate, heq⟩ := Option.map_eq_some_iff.mp hstep
      cases heq
      obtain ⟨-, hnew, hcanary⟩ := CanaryTokenManager.generate_spec hgenerate
      have hrun := h.verifications v (List.mem_of_getElem? hv)
      refine (h.mint hnew hcanary recorded).of_verifications fun w hw => ?_
      rcases mem_set_cases hw with rfl | hw
      · cases recorded with
        | false => exact hrun.raised (by simp [hphase])
        | true => exact hrun.reproducing hphase token
      · exact h.verifications w hw
    · cases hstep
  | reproduced i status =>
    simp only [OracleSystem.step] at hstep
    split at hstep
    next v hv =>
      split at hstep
      next token hphase =>
        cases hstep
        have hrun := h.verifications v (List.mem_of_getElem? hv)
        refine h.of_verifications fun w hw => ?_
        rcases mem_set_cases hw with rfl | hw
        · cases status with
          | none => exact hrun.raised (by simp [hphase])
          | some status => exact hrun.report hphase status
        · exact h.verifications w hw
      · cases hstep
    · cases hstep
  | generate draws actor candidateId =>
    obtain ⟨⟨token, canary, entry⟩, hgenerate, heq⟩ := Option.map_eq_some_iff.mp hstep
    cases heq
    obtain ⟨-, hnew, hcanary⟩ := CanaryTokenManager.generate_spec hgenerate
    exact h.mint hnew hcanary false
  | embed template token =>
    cases hstep
    exact h
  | oobSubdomain token =>
    cases hstep
    exact h
  | verifyEcho response token actor recorded =>
    -- A presented token is consumed, whether or not the response echoes it.
    simp only [OracleSystem.step] at hstep
    split at hstep
    · cases hstep
      exact h
    next hit canary entry hverify =>
      cases hstep
      obtain ⟨-, hnew, -, hcanary, -⟩ := CanaryTokenManager.verifyEcho_ok_iff.mp hverify
      exact h.consume hnew hcanary (hit && recorded)

end Consistent

/-- A call of `verify` goes on as soon as the source yields a token that was not issued before. -/
theorem draw_isSome {Diff : Type} {H : Sha256} {s : OracleSystem} (h : s.Consistent) {i : ℕ}
    {v : Verification} (hv : s.verifications[i]? = some v) (hphase : v.phase = .drawing)
    {draws : List Str} {token : Str} (hmem : token ∈ draws) (hnew : token ∉ s.minted)
    (recorded : Bool) : (s.step H (.draw i draws recorded : OracleCall Diff)).isSome = true := by
  simp only [step, hv, hphase, if_true, Option.isSome_map]
  exact CanaryTokenManager.generate_isSome hmem fun hissued => hnew ((h.issued token).mp hissued)

/-- **Verdicts and tokens of every run**: a call of `verify` returns `confirmed` exactly if all its
reproductions succeeded, the tokens given to reproductions are distinct, and a call of `verify_echo`
returns true only for a token that was issued before, and for none a second time. -/
theorem oracle_tokens_single_use {Diff : Type} {H : Sha256} {oobDomain : Str} {s : OracleSystem}
    (h : Reaches (@step Diff H) (fun _ _ => True) { canary := { oobDomain := oobDomain } } s) :
    (∀ v ∈ s.verifications, v.Returns .confirmed ↔
      v.statuses.length = v.method.defaultN ∧ ∀ status ∈ v.statuses, status = .success) ∧
    s.given.Nodup ∧ s.echoed.Nodup ∧
    ∀ response token actor canary entry,
      s.canary.verifyEcho H response token actor = .ok (true, canary, entry) →
        token ∈ s.minted ∧ token ∉ s.echoed := by
  have hcons : s.Consistent :=
    h.invariant (Consistent.init oobDomain) fun _ _ _ ht _ hstep => ht.step hstep
  refine ⟨fun v hv => (hcons.verifications v hv).returns_confirmed_iff,
    hcons.minted_nodup.sublist hcons.given, hcons.echoed_nodup, ?_⟩
  intro response token actor canary entry hverify
  obtain ⟨hissued, hconsumed, -⟩ := CanaryTokenManager.verifyEcho_ok_iff.mp hverify
  exact ⟨(hcons.issued token).mp hissued, fun hmem => hconsumed (hcons.echoed token hmem)⟩

/-! ## Two reproductions, the second on a repeated draw -/

/-- A token. -/
def firstToken : Str := "q8Zk1vX0mB7cR2tYw5nLdA".toList

/-- Another token. -/
def secondToken : Str := "H3jPe9sUoF4gVxIiK6Qb_w".toList

/-- The digests of the two tokens. -/
def tokenDigest : Sha256 where
  hexdigest text :=
    if text = firstToken then
      "ba15b6b2531d6c134bcade0e488de8ea8385abf408b538edacbe612a09a4e289".toList
    else "e98b3b8180a01d572f1ce042344704af61e58d49e22b09989ab40d5dbb8de39f".toList
  hex text := by
    split_ifs
    · exact List.forall_iff_forall_mem.mp (by decide +kernel)
    · exact List.forall_iff_forall_mem.mp (by decide +kernel)
  ne_nil text := by
    split_ifs
    · decide
    · decide

/-- A method with `n + 1` reproductions. -/
def rceMethod (n : ℕ) : VerificationMethod := .curated .rce (n + 1) n.succ_pos

/-- A candidate of that method. -/
def rceCandidate : CandidateFinding Unit where
  id := "cand-1"
  observationId := "obs-1"
  vulnType := .rce
  target := "app.example.com"
  id_ne := by decide
  observationId_ne := by decide
  target_ne := by decide

/-- The source repeats the first token in the second draw, and the first token is presented twice. -/
def repeatedDraw : List (OracleCall Unit) :=
  [.verify ⟨Dict.empty.set .rce (rceMethod 1)⟩ rceCandidate "oracle",
    .draw 0 [firstToken] true, .verifyEcho firstToken firstToken "oracle" true,
    .reproduced 0 (some .success), .draw 0 [firstToken, secondToken] true,
    .verifyEcho firstToken firstToken "oracle" true, .reproduced 0 (some .success)]

theorem oracle_tokens_single_use_repeatedDraw :
    ∃ s, runLabels (step tokenDigest) {} repeatedDraw = some s ∧
      s.given = [firstToken, secondToken] ∧ s.echoed = [firstToken] ∧
      (∀ v ∈ s.verifications, v.Returns .confirmed ↔
        v.statuses.length = v.method.defaultN ∧ ∀ status ∈ v.statuses, status = .success) ∧
      s.given.Nodup ∧ s.echoed.Nodup ∧
      ∀ response token actor canary entry,
        s.canary.verifyEcho tokenDigest response token actor = .ok (true, canary, entry) →
          token ∈ s.minted ∧ token ∉ s.echoed := by
  obtain ⟨s, hs⟩ := Option.isSome_iff_exists.mp
    (show (runLabels (step tokenDigest) {} repeatedDraw).isSome = true by decide +kernel)
  refine ⟨s, hs, eq_of_runLabels given hs (by decide +kernel),
    eq_of_runLabels echoed hs (by decide +kernel), ?_⟩
  exact oracle_tokens_single_use (.of_runLabels hs (runMeets_of_forall fun _ _ _ => trivial))

end OracleSystem

end SecOpent
