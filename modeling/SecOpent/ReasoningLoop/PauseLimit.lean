import SecOpent.ReasoningLoop.TerminalPhases

/-!
# The limit on pauses

`resume` asks whether the attempts so far and this one exceed `max_pauses`, and `pause_budget_exceeded`
says so from `max_pauses` on. So of a loop that is paused and resumed again and again one resume less is
admitted than the limit says.

## Main definitions

* `InCycle`: a call of a sequence of pauses and resumes with steps between them
* `LoopDeployment.resumeOutcomes`: which of the resumes succeed

## Main results

* `attempts_next`: only a resume that succeeds counts as an attempt
* `resumeOutcomes_getElem?`: a resume succeeds while the attempts and this one are less than the limit
* `resumes_up_to_limit_iff`: the first `max_pauses` resumes succeed exactly if there are less of them
-/

namespace SecOpent

open Python Transition

/-- A resume. -/
def LoopOp.isResume : LoopOp → Bool
  | .resume .. => true
  | _ => false

variable (d : LoopDeployment) (H : Sha256) (loopId : LoopId)

/-- The repositories after a call. -/
def LoopDeployment.next (store : LoopStore) (call : LoopCall) : LoopStore :=
  store.perform call.session call.accepts (d.act H call.loopId (store.get? call.loopId) call.op)

/-- A call of a sequence of pauses and resumes of a loop, with steps between them: a resume is made of
the loop while it is paused, by a human and with an approval, and is recorded. -/
def InCycle (store : LoopStore) (call : LoopCall) : Prop :=
  call.loopId = loopId →
    match call.op with
    | .runStep _ => True
    | .pause .. => True
    | .resume request _ =>
      (∃ state, store.get? loopId = some state ∧ state.phase = .paused) ∧
        request.actorRole ≠ "agent" ∧ d.control.approval loopId request = .ok () ∧
        ∀ event, call.accepts event = true
    | _ => False

/-- Whether a resume of the loop succeeds. -/
def LoopDeployment.resumeOutcome (store : LoopStore) (call : LoopCall) : Option Bool :=
  if call.loopId = loopId then
    match call.op with
    | .resume request now =>
      some (d.control.resume loopId request now (store.get? loopId)).result.isOk
    | _ => none
  else none

/-- Whether the resumes of the loop succeed, one after the other. -/
def LoopDeployment.resumeOutcomes : LoopStore → List LoopCall → List Bool
  | _, [] => []
  | store, call :: calls =>
    (d.resumeOutcome loopId store call).toList ++
      LoopDeployment.resumeOutcomes (d.next H store call) calls

section Spec

variable {d H loopId} {store : LoopStore} {call : LoopCall} {state : LoopState}

/-- There is an outcome for each resume of the loop. -/
theorem length_resumeOutcomes (calls : List LoopCall) :
    (d.resumeOutcomes H loopId store calls).length =
      calls.countP fun call => decide (call.loopId = loopId) && call.op.isResume := by
  induction calls generalizing store with
  | nil => rfl
  | cons call calls ih =>
    rw [LoopDeployment.resumeOutcomes, List.length_append, ih, List.countP_cons, Nat.add_comm]
    congr 1
    rw [LoopDeployment.resumeOutcome]
    by_cases hloop : call.loopId = loopId
    · rw [if_pos hloop, decide_eq_true hloop, Bool.true_and]
      cases call.op with
      | resume request now => rfl
      | runStep answers => rfl
      | pause actor reason actorRole now => rfl
      | resumeLoop request now => rfl
      | emergencyStop actor reason now => rfl
    · rw [if_neg hloop, decide_eq_false hloop, Bool.false_and]
      rfl

/-- A resume in the cycle succeeds while the limit is not reached, and is refused without effect from
then on. -/
theorem resume_inCycle {request : ResumeRequest} {now : Time} (hpaused : state.phase = .paused)
    (hrole : request.actorRole ≠ "agent") (happroval : d.control.approval loopId request = .ok ()) :
    if state.pauseAttempts + 1 < d.control.policy.maxPauses then
      d.control.resume loopId request now (some state) =
        ⟨[.save (PauseControl.resumedState state now), .record ⟨request.actor, "loop.resumed",
          loopId.value, PauseControl.resumedPayload request state now⟩],
          .ok (PauseControl.resumedState state now)⟩
    else
      (d.control.resume loopId request now (some state)).effects = [] ∧
        (d.control.resume loopId request now (some state)).result.isOk = false := by
  have hdead : state.phase ∉ deadPhases := by
    rw [hpaused]
    decide
  split
  next hlimit =>
    have hbudget : d.control.policy.pauseBudgetExceeded (state.pauseAttempts + 1) = false :=
      decide_eq_false (not_le.mpr hlimit)
    exact PauseControl.resume_effects ⟨hrole, hbudget, happroval⟩ hdead
  next hlimit =>
    have hbudget : d.control.policy.pauseBudgetExceeded (state.pauseAttempts + 1) = true :=
      decide_eq_true (not_lt.mp hlimit)
    rw [PauseControl.resume, if_neg hrole]
    rw [if_neg hdead, if_pos hbudget]
    exact ⟨rfl, rfl⟩

/-- A call of another loop leaves the record of this one. -/
theorem get?_next_of_ne (hloop : call.loopId ≠ loopId) :
    (d.next H store call).get? loopId = store.get? loopId := by
  rcases LoopStore.perform_cases call.session call.accepts
      (d.act H call.loopId (store.get? call.loopId) call.op) loopId with
    hsame | ⟨saved, hdone, hid, -⟩
  · exact hsame
  · -- A call writes the record of its own loop alone.
    obtain ⟨⟨found, hread, hsaved⟩, -⟩ :=
      act_saves call.op _ (LoopStore.mem_of_mem_carriedOut hdone) saved rfl
    exact absurd ((LoopStore.loopId_of_get? hread).symm.trans (hsaved.symm.trans hid)) hloop

/-- What the calls of the cycle other than resumes save counts as many attempts. -/
theorem attempts_of_saves {x : LoopActing Unit} (hstate : store.get? loopId = some state)
    (hsaves : Saves (fun saved => saved.pauseAttempts = state.pauseAttempts) x) :
    ∃ state', (store.perform call.session call.accepts x).get? loopId = some state' ∧
      state'.pauseAttempts = state.pauseAttempts := by
  rcases LoopStore.perform_cases call.session call.accepts x loopId with
    hsame | ⟨saved, hdone, -, hafter⟩
  · exact ⟨state, hsame.trans hstate, rfl⟩
  · exact ⟨saved, hafter, hsaves _ (LoopStore.mem_of_mem_carriedOut hdone) saved rfl⟩

theorem perform_of_no_effects {x : LoopActing Unit} (h : x.effects = []) :
    store.perform call.session call.accepts x = store := by
  rw [LoopStore.perform, LoopStore.carriedOut, h]
  split
  · rfl
  · rfl

/-- **Only a resume that succeeds counts as an attempt**, and it does while the limit is not reached. -/
theorem attempts_next (hcycle : InCycle d loopId store call)
    (hstate : store.get? loopId = some state) :
    ∃ state', (d.next H store call).get? loopId = some state' ∧
      match d.resumeOutcome loopId store call with
      | none => state'.pauseAttempts = state.pauseAttempts
      | some b => b = decide (state.pauseAttempts + 1 < d.control.policy.maxPauses) ∧
          state'.pauseAttempts = state.pauseAttempts + if b then 1 else 0 := by
  by_cases hloop : call.loopId = loopId
  · have hop := hcycle hloop
    subst hloop
    rw [LoopDeployment.resumeOutcome, if_pos rfl, LoopDeployment.next]
    -- Steps and pauses write the attempts as they read them.
    cases hcall : call.op with
    | runStep answers =>
      refine attempts_of_saves hstate ?_
      refine Saves.mono runStep_saves_stepped fun saved hsaved => ?_
      obtain ⟨found, hread, -, -, step, passed, -, rfl⟩ := hsaved
      rw [hstate] at hread
      obtain rfl := Option.some.inj hread
      rfl
    | pause actor reason actorRole now =>
      refine attempts_of_saves hstate ?_
      refine Saves.mono PauseControl.pause_saves fun saved hsaved => ?_
      obtain ⟨found, hread, -, -, -, rfl⟩ := hsaved
      rw [hstate] at hread
      obtain rfl := Option.some.inj hread
      rfl
    | resume request now =>
      rw [hcall] at hop
      obtain ⟨⟨found, hread, hpaused⟩, hrole, happroval, haccepts⟩ := hop
      rw [hstate] at hread
      obtain rfl := Option.some.inj hread
      have hresume := @resume_inCycle d call.loopId state request now hpaused hrole happroval
      rw [hstate]
      -- The event is accepted, so what is saved stays also if the calls share a session.
      split at hresume
      next hlimit =>
        refine ⟨PauseControl.resumedState state now, ?_, ?_, ?_⟩
        · have hread : state.loopId = call.loopId := LoopStore.loopId_of_get? hstate
          have hid : (PauseControl.resumedState state now).loopId = call.loopId := hread
          rw [← hid]
          refine get?_perform_save ?_ ?_ fun _ => haccepts ⟨request.actor, "loop.resumed",
            call.loopId.value, PauseControl.resumedPayload request state now⟩
          · simp only [LoopDeployment.act, discard, hid, hresume]
          · simp only [LoopDeployment.act, discard, hid, hresume]
            rfl
        · rw [hresume, decide_eq_true hlimit]
          rfl
        · rw [hresume]
          rfl
      next hlimit =>
        refine ⟨state, ?_, ?_, ?_⟩
        · rw [perform_of_no_effects hresume.1]
          exact hstate
        · rw [hresume.2, decide_eq_false hlimit]
        · rw [hresume.2]
          exact (add_zero _).symm
    | resumeLoop request now =>
      rw [hcall] at hop
      exact hop.elim
    | emergencyStop actor reason now =>
      rw [hcall] at hop
      exact hop.elim
  · rw [LoopDeployment.resumeOutcome, if_neg hloop, get?_next_of_ne hloop]
    exact ⟨state, hstate, rfl⟩

/-- **A resume succeeds while the attempts so far and this one are less than the limit.** -/
theorem resumeOutcomes_getElem? (hstate : store.get? loopId = some state) {calls : List LoopCall}
    (hcycle : runMeets (d.step H) (InCycle d loopId) store calls) (k : ℕ) (b : Bool)
    (hb : (d.resumeOutcomes H loopId store calls)[k]? = some b) :
    b = decide (state.pauseAttempts + k + 1 < d.control.policy.maxPauses) := by
  -- On the calls: the first outcome is the one of the first resume, with `k` one less after it.
  induction calls generalizing store state k with
  | nil => cases hb
  | cons call calls ih =>
    obtain ⟨hcall, hcalls⟩ := hcycle
    have hrest := hcalls _ rfl
    obtain ⟨state', hstate', hattempts⟩ := attempts_next (H := H) hcall hstate
    rw [LoopDeployment.resumeOutcomes] at hb
    cases houtcome : d.resumeOutcome loopId store call with
    | none =>
      rw [houtcome] at hb hattempts
      rw [← hattempts]
      exact ih hstate' hrest k hb
    | some first =>
      rw [houtcome] at hb hattempts
      obtain ⟨hfirst, hattempts⟩ := hattempts
      cases k with
      | zero =>
        obtain rfl := Option.some.inj hb
        simpa using hfirst
      | succ k =>
        rw [ih hstate' hrest k hb]
        -- Once a resume was refused, the attempts stay as they are, and so do the refusals.
        cases first with
        | true =>
          have hnext : state'.pauseAttempts = state.pauseAttempts + 1 := hattempts
          refine decide_eq_decide.mpr ?_
          push_cast
          omega
        | false =>
          have hnext : state'.pauseAttempts = state.pauseAttempts := by simpa using hattempts
          have hlimit := of_decide_eq_false hfirst.symm
          refine decide_eq_decide.mpr ?_
          push_cast
          omega

end Spec

/-- **The limit on pauses.** Of a new loop that is paused and resumed again and again, with steps
between, the first `n` resumes succeed and the others are refused, where `n` is the limit, exactly if
there are less than `n` resumes: the `n`-th is refused. -/
theorem resumes_up_to_limit_iff (d : LoopDeployment) (H : Sha256) (loopId : LoopId) (store : LoopStore)
    (state : LoopState) (n : ℕ) (hn : 1 ≤ n) (hlimit : d.control.policy.maxPauses = n)
    (hstate : store.get? loopId = some state) (hnew : state.pauseAttempts = 0) (calls : List LoopCall)
    (hcycle : runMeets (d.step H) (InCycle d loopId) store calls) :
    (∀ k b, (d.resumeOutcomes H loopId store calls)[k]? = some b → (b = true ↔ k < n)) ↔
      (calls.countP fun call => decide (call.loopId = loopId) && call.op.isResume) < n := by
  have houtcomes := resumeOutcomes_getElem? hstate hcycle
  rw [hnew, hlimit] at houtcomes
  have hcount := @length_resumeOutcomes d H loopId store calls
  rw [← hcount]
  constructor
  · intro h
    by_contra hlength
    -- The resume that reaches the limit.
    have hk : n - 1 < (d.resumeOutcomes H loopId store calls).length := by omega
    have hget := List.getElem?_eq_getElem hk
    have hrefused := houtcomes _ _ hget
    have hsucceeds := (h _ _ hget).mpr (by omega)
    rw [hrefused, decide_eq_true_iff] at hsucceeds
    omega
  · intro hlength k b hb
    have hk : k < (d.resumeOutcomes H loopId store calls).length :=
      (List.getElem?_eq_some_iff.mp hb).1
    rw [houtcomes k b hb, decide_eq_true_iff]
    omega

/-- A human resumes the loop, with an approval. -/
def resumeCall : LoopCall where
  loopId := newLoop.loopId
  op := .resume { actor := "bob", approvedBy := some "cara", signature := some "sig-123" } 4

/-- The loop is paused and resumed some times. -/
def pauseRounds : ℕ → List LoopCall
  | 0 => []
  | n + 1 => pauseCall :: resumeCall :: pauseRounds n

theorem inCycle_pauseRounds_three :
    runMeets (pausingDeployment.step codeDigest) (InCycle pausingDeployment newLoop.loopId)
      (LoopStore.single newLoop) (pauseRounds 3) := by
  refine ⟨fun _ => trivial, fun store hstore => ?_⟩
  obtain rfl := Option.some.inj hstore
  refine ⟨fun _ => ⟨⟨_, rfl, rfl⟩, by decide, rfl, fun _ => rfl⟩, fun store hstore => ?_⟩
  obtain rfl := Option.some.inj hstore
  refine ⟨fun _ => trivial, fun store hstore => ?_⟩
  obtain rfl := Option.some.inj hstore
  refine ⟨fun _ => ⟨⟨_, rfl, rfl⟩, by decide, rfl, fun _ => rfl⟩, fun store hstore => ?_⟩
  obtain rfl := Option.some.inj hstore
  refine ⟨fun _ => trivial, fun store hstore => ?_⟩
  obtain rfl := Option.some.inj hstore
  exact ⟨fun _ => ⟨⟨_, rfl, rfl⟩, by decide, rfl, fun _ => rfl⟩, fun _ _ => trivial⟩

/-- With a limit of three pauses, the third resume of a loop is refused. -/
theorem third_resume_refused :
    pausingDeployment.control.policy.maxPauses = 3 ∧
      runMeets (pausingDeployment.step codeDigest) (InCycle pausingDeployment newLoop.loopId)
        (LoopStore.single newLoop) (pauseRounds 3) ∧
      pausingDeployment.resumeOutcomes codeDigest newLoop.loopId (LoopStore.single newLoop)
        (pauseRounds 3) = [true, true, false] :=
  ⟨rfl, inCycle_pauseRounds_three, by decide +kernel⟩

theorem two_resumes_of_three :
    (∀ k b, (pausingDeployment.resumeOutcomes codeDigest newLoop.loopId (LoopStore.single newLoop)
        (pauseRounds 2))[k]? = some b → (b = true ↔ k < 3)) ↔
      ((pauseRounds 2).countP fun call =>
        decide (call.loopId = newLoop.loopId) && call.op.isResume) < 3 :=
  resumes_up_to_limit_iff pausingDeployment codeDigest newLoop.loopId (LoopStore.single newLoop)
    newLoop 3 (by decide) rfl (by decide +kernel) rfl (pauseRounds 2)
    (runMeets_of_append inCycle_pauseRounds_three).1

end SecOpent
