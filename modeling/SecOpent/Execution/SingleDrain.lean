import SecOpent.Execution.System

/-!
# One drain per assessment

A pause is a request in the `control` field of the assessment, which the running drain reads before
its next target; a resume overwrites the field and starts a new drain at once. Drains do not overlap
in every run in which a resume comes only after the pause request was consumed and the earlier
drain has nothing left to lease.

## Main definitions

* `Drain.live`: the drain may still ask its gate for another target
* `Drain.CanLease`: it may still lease a job
* `ResumesAfterPause`: the condition on one step, read in the state before it
* `SingleDrain`: the invariant

## Main results

* `SingleDrain.step`: the invariant is kept
* `earlier_drains_issue_nothing`: only the newest drain of an assessment leases jobs
-/

namespace SecOpent

open Python Transition

/-- The drain may still pass its gate. -/
def Drain.live (d : Drain) : Bool :=
  match d.phase with
  | .finished => false
  | .draining _ _ _ (.stopped _) => false
  | _ => true

/-- The targets past the gate that are not leased yet. -/
def Drain.submitted (d : Drain) : List (Job × PlanStep) :=
  match d.phase with
  | .draining _ _ run _ => run.submitted
  | _ => []

/-- The drain may still lease a job. -/
def Drain.CanLease (d : Drain) : Prop := d.live = true ∨ d.submitted ≠ []

/-! ## One drain -/

theorem Orchestrator.act_submitted {backend : Backend} {ttl : Time} {store store' : JobStore}
    {o o' : Orchestrator} {action : OrchestratorAction}
    (h : o.act backend ttl store action = some (store', o')) (hsubmit : action ≠ .submit)
    (hnil : o.submitted = []) : o'.submitted = [] := by
  cases act_cases h with
  | submit => exact absurd rfl hsubmit
  | lease hsubmitted => simp [hnil] at hsubmitted
  | refusedLease hsubmitted => simp [hnil] at hsubmitted
  | _ => exact hnil

theorem Gate.after_stopped (decision : StopDecision) {action : OrchestratorAction}
    (h : (Gate.stopped decision).allows action = true) :
    (Gate.stopped decision).after action = .stopped decision ∧ action ≠ .submit := by
  have hne : action ≠ .submit := by
    rintro rfl
    cases decision <;> cases h
  refine ⟨?_, hne⟩
  cases action <;> first | rfl | exact absurd rfl hne

section Moves

variable {deployment : Deployment} {s s' : Shared} {d d' : Drain}

theorem Drain.Moved.live_of_live (h : d.Moved deployment s s' d') (hlive : d'.live = true) :
    d.live = true := by
  cases h with
  | markedRunning repo hphase => simp [live, hphase]
  | passedStop hphase => rcases hphase with ⟨hphase, -⟩ | ⟨hphase, -⟩ <;> simp [live, hphase]
  | loaded plan scope hphase => simp [live, hphase]
  | prepared plan scope revoker permitNonces phase hprepares =>
    cases hphase : d.phase <;> simp_all [Phase.prepares, live]
  | drained plan scope now hphase =>
    rcases hphase with hprepares | ⟨hphase, -⟩
    · cases hphase : d.phase <;> simp_all [Phase.prepares, live]
    · simp [live, hphase]
  | acted plan scope run run' gate action jobs hphase hallows hact =>
    -- A stopped gate stays stopped.
    cases gate with
    | stopped decision => simp [live, (Gate.after_stopped decision hallows).1] at hlive
    | closed | passed | signal => simp [live, hphase]
  | vanished plan scope run hphase => simp [live, hphase]
  | askedGate plan scope run row hphase => simp [live, hphase]
  | clearedSignal plan scope run row hphase => simp [live, hphase]
  | ended repo hrepo => simp [live, finished] at hlive

theorem Drain.Moved.submitted_of_not_live (h : d.Moved deployment s s' d')
    (hlive : d.live = false) (hnil : d.submitted = []) : d'.submitted = [] := by
  cases h with
  | acted plan scope run run' gate action jobs hphase hallows hact =>
    cases gate with
    | stopped decision =>
      have hrun : run.submitted = [] := by simpa [submitted, hphase] using hnil
      exact run.act_submitted hact (Gate.after_stopped decision hallows).2 hrun
    | closed | passed | signal => simp [live, hphase] at hlive
  | prepared plan scope revoker permitNonces phase hprepares hprepares' =>
    cases phase <;> simp_all [Phase.prepares, submitted]
  | vanished plan scope run hphase => simp [live, hphase] at hlive
  | askedGate plan scope run row hphase => simp [live, hphase] at hlive
  | clearedSignal plan scope run row hphase => simp [live, hphase] at hlive
  | _ => rfl

theorem Drain.submitted_of_lease {k : ℕ}
    (h : d.move deployment s (.act (.lease k)) = some (s', d')) : d.submitted ≠ [] := by
  intro hnil
  simp only [move] at h
  split at h
  next plan scope run gate hphase =>
    have hrun : run.submitted = [] := by simpa [submitted, hphase] using hnil
    simp [Orchestrator.act, hrun] at h
  next => cases h

theorem Drain.live_of_submit (h : d.move deployment s (.act .submit) = some (s', d')) :
    d.live = true := by
  simp only [move] at h
  split at h
  next plan scope run gate hphase =>
    cases gate with
    | passed => simp [live, hphase]
    | closed | signal | stopped => simp [Gate.allows] at h
  next => cases h

/-- A gate that passed on a signal had read the signal of a resume. -/
theorem Drain.live_of_cleared {plan : ExecutionPlan} {scope : ScopeSnapshot} {run : Orchestrator}
    {control : ControlState}
    (hphase : d.phase = .draining plan scope run (Gate.ofSignal control))
    (hlive : d.live = true) : control ≠ .pauseRequested := by
  rintro rfl
  simp [live, hphase, Gate.ofSignal] at hlive

end Moves

/-! ## The system -/

namespace World

/-- A resume finds the assessment paused and the pause request consumed, or no drain that is still
live; and no earlier drain has a target past its gate that is not leased. -/
def ResumesAfterPause (w : World) : WorldLabel → Prop
  | .serve (.resume assessmentId) => ∀ d ∈ w.drains, d.assessmentId = assessmentId →
      d.submitted = [] ∧ (d.live = true →
        ∀ row, w.shared.repo.assessments.get? assessmentId = some row →
          row.status = .paused ∧ row.control ≠ .pauseRequested)
  | _ => True

/-- **The invariant**: only the newest drain of an assessment is live, and as long as it is, a pause
is still requested of it. -/
structure SingleDrain (w : World) : Prop where
  begun : w.Begun
  newest : ∀ (i j : ℕ) (d d' : Drain), w.drains[i]? = some d → w.drains[j]? = some d' → i < j →
    d.assessmentId = d'.assessmentId → d.live = false ∧ d.submitted = []
  requested : ∀ d ∈ w.drains, d.live = true →
    ∀ row, w.shared.repo.assessments.get? d.assessmentId = some row → row.status = .paused →
      row.control = .pauseRequested
  rows : ∀ id row, w.shared.repo.assessments.get? id = some row → row.status = .paused →
    row.control = .pauseRequested ∨ row.control = .none
  read : ∀ d ∈ w.drains, ∀ plan scope run row, d.phase = .draining plan scope run (.signal row) →
    row.status = .paused → row.control = .pauseRequested

/-- The label is a resume. -/
def isResume : WorldLabel → Bool
  | .serve (.resume _) => true
  | _ => false

theorem resumesAfterPause_of_not_resume {l : WorldLabel} (h : isResume l = false) (w : World) :
    w.ResumesAfterPause l := by
  cases l with
  | serve call =>
    cases call with
    | resume assessmentId => cases h
    | _ => trivial
  | _ => trivial

section Step

variable {deployment : Deployment} {w u : World}

/-- A row that the service wrote is paused by a request. -/
theorem ServeEffect.paused {call : Option ServiceCall} {repo repo' : Repositories}
    (h : ServeEffect call repo repo') {id : String} {row : Assessment}
    (hrow : repo'.assessments.get? id = some row) :
    repo.assessments.get? id = some row ∨
      (row.status = .paused → row.control = .pauseRequested) := by
  rcases h.assessments with heq | ⟨written, hwritten, heq⟩
  · exact .inl (heq ▸ hrow)
  · rw [heq, Table.get?_put] at hrow
    split at hrow
    · right
      cases hrow
      -- Only a move can end in `paused`, and it carries the request.
      cases hwritten with
      | created row hstatus => simp [hstatus]
      | planned | approved => simp
      | moved found target control hfound htarget hplan happroval hpause => exact hpause
    · exact .inl hrow

/-- Two live drains of one assessment are the same drain. -/
theorem SingleDrain.unique (hinv : w.SingleDrain) {i j : ℕ} {d d' : Drain}
    (hi : w.drains[i]? = some d) (hj : w.drains[j]? = some d')
    (hsame : d.assessmentId = d'.assessmentId) (hlive : d.live = true) (hlive' : d'.live = true) :
    i = j := by
  rcases Nat.lt_trichotomy i j with hlt | heq | hlt
  · have := (hinv.newest i j d d' hi hj hlt hsame).1
    simp [hlive] at this
  · exact heq
  · have := (hinv.newest j i d' d hj hi hlt hsame.symm).1
    simp [hlive'] at this

/-- A call that starts a drain finds no live drain of its assessment. -/
theorem SingleDrain.spawn (hinv : w.SingleDrain) {call : ServiceCall}
    (hcond : w.ResumesAfterPause (.serve call)) {repo' : Repositories}
    (hserve : serve deployment.unicode deployment.digest deployment.service w.shared.repo call =
      .ok repo')
    {d new : Drain} (hd : d ∈ w.drains) (hnew : new ∈ call.spawned)
    (hsame : d.assessmentId = new.assessmentId) : d.live = false ∧ d.submitted = [] := by
  obtain ⟨-, -, row, target, control, hrow, hallowed, -, hkind⟩ := spawned_row hserve hnew
  rw [← hsame] at hrow
  rcases hkind with ⟨rfl, -⟩ | ⟨rfl, -, hcall⟩
  · -- A start finds an approved assessment, which has no drain yet.
    obtain ⟨found, hfound, hbegun, -⟩ := hinv.begun d hd
    rw [hrow] at hfound
    cases hfound
    cases hs : row.status <;> simp_all [allowedTransitions, AssessmentStatus.begun]
  · subst hcall
    obtain ⟨hnil, hcontrol⟩ := hcond d hd hsame
    refine ⟨?_, hnil⟩
    by_contra hlive
    have hlive : d.live = true := by simpa using hlive
    -- A live drain of a paused assessment has not consumed the request yet.
    obtain ⟨hpaused, hconsumed⟩ := hcontrol hlive row (hsame ▸ hrow)
    exact hconsumed (hinv.requested d hd hlive row hrow hpaused)

theorem SingleDrain.read_id (hinv : w.SingleDrain) {d : Drain} (hd : d ∈ w.drains)
    {plan : ExecutionPlan} {scope : ScopeSnapshot} {run : Orchestrator} {read : Assessment}
    (hphase : d.phase = .draining plan scope run (.signal read)) : read.id = d.assessmentId := by
  obtain ⟨row, hrow, -, hread⟩ := hinv.begun d hd
  exact (hread plan scope run read hphase).2.id.trans (Table.key_of_get? hrow)

/-- As long as a drain is live, its pause is still requested. -/
theorem SingleDrain.requested_of_moved (hinv : w.SingleDrain) {i : ℕ} {d d' : Drain} {s' : Shared}
    (hi : w.drains[i]? = some d) (hmoved : d.Moved deployment w.shared s' d') {j : ℕ} {x : Drain}
    (hj : (w.drains.set i d')[j]? = some x) (hlive : x.live = true) {row : Assessment}
    (hrow : s'.repo.assessments.get? x.assessmentId = some row) (hpaused : row.status = .paused) :
    row.control = .pauseRequested := by
  -- The drain was live before the step too.
  obtain ⟨y, hy, hyid, hylive⟩ : ∃ y, w.drains[j]? = some y ∧ y.assessmentId = x.assessmentId ∧
      y.live = true := by
    rcases getElem?_set_cases hj with ⟨rfl, rfl⟩ | ⟨-, hx⟩
    · exact ⟨d, hi, hmoved.assessmentId.symm, hmoved.live_of_live hlive⟩
    · exact ⟨x, hx, rfl, hlive⟩
  rcases hmoved.repo_effect with heffect | ⟨plan, scope, run, read, hphase, hphase', heq⟩
  · rcases ServeEffect.paused heffect hrow with hold | hwritten
    · exact hinv.requested y (List.mem_of_getElem? hy) hylive row (hyid ▸ hold) hpaused
    · exact hwritten hpaused
  · have hdmem := List.mem_of_getElem? hi
    rw [heq, Repositories.addAssessment, Table.get?_put] at hrow
    split at hrow
    next hid =>
      exfalso
      cases hrow
      have hcontrol := hinv.read d hdmem plan scope run read hphase hpaused
      have hdlive : d.live = true := by simp [Drain.live, hphase]
      have hsame : d.assessmentId = y.assessmentId := by
        rw [hyid, ← hinv.read_id hdmem hphase]
        exact hid.symm
      -- The gate belongs to the only live drain, which stops.
      obtain rfl := hinv.unique hi hy hsame hdlive hylive
      rcases getElem?_set_cases hj with ⟨-, rfl⟩ | ⟨hne, -⟩
      · exact Drain.live_of_cleared hphase' hlive hcontrol
      · exact hne rfl
    next => exact hinv.requested y (List.mem_of_getElem? hy) hylive row (hyid ▸ hrow) hpaused

theorem SingleDrain.rows_of_moved (hinv : w.SingleDrain) {d d' : Drain} {s' : Shared}
    (hmoved : d.Moved deployment w.shared s' d') {id : String} {row : Assessment}
    (hrow : s'.repo.assessments.get? id = some row) (hpaused : row.status = .paused) :
    row.control = .pauseRequested ∨ row.control = .none := by
  rcases hmoved.repo_effect with heffect | ⟨plan, scope, run, read, -, -, heq⟩
  · rcases ServeEffect.paused heffect hrow with hold | hwritten
    · exact hinv.rows id row hold hpaused
    · exact .inl (hwritten hpaused)
  · rw [heq, Repositories.addAssessment, Table.get?_put] at hrow
    split at hrow
    · cases hrow
      exact .inr rfl
    · exact hinv.rows id row hrow hpaused

theorem SingleDrain.step_drain (hinv : w.SingleDrain) {i : ℕ} {move : DrainMove}
    (hstep : w.step deployment (.drain i move) = some u) : u.SingleDrain := by
  have hbegun := hinv.begun.step hstep
  obtain ⟨d, s', d', hi, hmove, rfl⟩ := World.step_drain hstep
  have hmoved := Drain.moved_of_move hmove
  have hdmem := List.mem_of_getElem? hi
  refine ⟨hbegun, ?_, ?_, ?_, ?_⟩
  · intro k j x y hk hj hlt hsame
    -- A drain that is not the newest moves without coming to life.
    obtain ⟨x₀, hx₀, hx₀id, hquiet⟩ : ∃ x₀, w.drains[k]? = some x₀ ∧
        x₀.assessmentId = x.assessmentId ∧ (x₀.live = false → x₀.submitted = [] →
          x.live = false ∧ x.submitted = []) := by
      rcases getElem?_set_cases hk with ⟨rfl, rfl⟩ | ⟨-, hx⟩
      · refine ⟨d, hi, hmoved.assessmentId.symm, fun hlive hnil => ?_⟩
        refine ⟨?_, hmoved.submitted_of_not_live hlive hnil⟩
        by_contra hx
        have hlive' := hmoved.live_of_live (by simpa using hx)
        simp [hlive] at hlive'
      · exact ⟨x, hx, rfl, fun hlive hnil => ⟨hlive, hnil⟩⟩
    obtain ⟨y₀, hy₀, hy₀id⟩ : ∃ y₀, w.drains[j]? = some y₀ ∧ y₀.assessmentId = y.assessmentId := by
      rcases getElem?_set_cases hj with ⟨rfl, rfl⟩ | ⟨-, hy⟩
      · exact ⟨d, hi, hmoved.assessmentId.symm⟩
      · exact ⟨y, hy, rfl⟩
    obtain ⟨hlive, hnil⟩ := hinv.newest k j x₀ y₀ hx₀ hy₀ hlt (by rw [hx₀id, hy₀id, hsame])
    exact hquiet hlive hnil
  · intro x hx hlive row hrow hpaused
    obtain ⟨j, hj⟩ := List.getElem?_of_mem hx
    exact hinv.requested_of_moved hi hmoved hj hlive hrow hpaused
  · intro id row hrow hpaused
    exact hinv.rows_of_moved hmoved hrow hpaused
  · intro x hx plan scope run read hphase hpaused
    rcases mem_set_cases hx with rfl | hx
    · -- A gate that reads a paused row now finds the request on it.
      rcases hmoved.signal hphase with ⟨run', hdraining⟩ | ⟨hfound, -, hcontrol⟩
      · exact hinv.read d hdmem plan scope run' read hdraining hpaused
      · rcases hinv.rows _ _ hfound hpaused with h | h
        · exact h
        · exact absurd h hcontrol
    · exact hinv.read x hx plan scope run read hphase hpaused

theorem SingleDrain.step_serve (hinv : w.SingleDrain) {call : ServiceCall}
    (hcond : w.ResumesAfterPause (.serve call))
    (hstep : w.step deployment (.serve call) = some u) : u.SingleDrain := by
  have hbegun := hinv.begun.step hstep
  obtain ⟨-, hfresh, hserve, hu⟩ := World.step_serve hstep
  have heffect := serve_effect hserve hfresh
  refine ⟨hbegun, ?_, ?_, ?_, ?_⟩
  · intro i j x y hi hj hlt hsame
    rw [hu] at hi hj
    rcases getElem?_append_cases hj with hj | ⟨hynew, hle⟩
    · rcases getElem?_append_cases hi with hi | ⟨-, hle⟩
      · exact hinv.newest i j x y hi hj hlt hsame
      · -- A new drain does not come before an old one.
        have hlen := (List.getElem?_eq_some_iff.mp hj).1
        omega
    · rcases getElem?_append_cases hi with hi | ⟨-, hle'⟩
      · exact hinv.spawn hcond hserve (List.mem_of_getElem? hi) hynew hsame
      · -- A call starts at most one drain.
        have hlen := (List.getElem?_eq_some_iff.mp hj).1
        have hone : call.spawned.length ≤ 1 := by cases call <;> simp [ServiceCall.spawned]
        simp only [List.length_append] at hlen
        omega
  · intro x hx hlive row hrow hpaused
    rcases ServeEffect.paused heffect hrow with hold | hwritten
    · rw [hu] at hx
      rcases List.mem_append.mp hx with hx | hx
      · exact hinv.requested x hx hlive row hold hpaused
      · -- A new drain's assessment is queued or running.
        exfalso
        obtain ⟨-, -, found, target, control, hfound, -, hrepo, htarget⟩ := spawned_row hserve hx
        rw [hrepo, Repositories.addAssessment, Table.get?_put,
          if_pos (Table.key_of_get? hfound).symm] at hrow
        cases hrow
        rcases htarget with ⟨rfl, -⟩ | ⟨rfl, -⟩ <;> cases hpaused
    · exact hwritten hpaused
  · intro id row hrow hpaused
    rcases ServeEffect.paused heffect hrow with hold | hwritten
    · exact hinv.rows id row hold hpaused
    · exact .inl (hwritten hpaused)
  · intro x hx plan scope run read hphase hpaused
    rw [hu] at hx
    rcases List.mem_append.mp hx with hx | hx
    · exact hinv.read x hx plan scope run read hphase hpaused
    · obtain ⟨hqueued, -⟩ := spawned_row hserve hx
      rw [hqueued] at hphase
      cases hphase

/-- **The invariant is kept by every step that meets the condition.** -/
theorem SingleDrain.step (hinv : w.SingleDrain) {l : WorldLabel} (hcond : w.ResumesAfterPause l)
    (hstep : w.step deployment l = some u) : u.SingleDrain := by
  cases l with
  | serve call => exact hinv.step_serve hcond hstep
  | trigger =>
    cases hstep
    exact ⟨hinv.begun, hinv.newest, hinv.requested, hinv.rows, hinv.read⟩
  | drain index move => exact hinv.step_drain hstep

end Step

/-! ## Runs -/

theorem singleDrain_init (scopes : Table ScopeSnapshot ScopeSnapshot.id) :
    SingleDrain { shared := { repo := { scopes } } } where
  begun := begun_init scopes
  newest i j d d' hi := by simp at hi
  requested d hd := by simp at hd
  rows id row hrow := by simp at hrow
  read d hd := by simp at hd

/-- **Only the newest drain of an assessment issues work**, in every run whose resumes come after
the pause: an earlier drain of the assessment can lease nothing, and no step of it does. -/
theorem earlier_drains_issue_nothing {deployment : Deployment}
    {scopes : Table ScopeSnapshot ScopeSnapshot.id} {t : World}
    (h : Reaches (World.step deployment) ResumesAfterPause { shared := { repo := { scopes } } } t)
    {i j : ℕ} {d d' : Drain} (hi : t.drains[i]? = some d) (hj : t.drains[j]? = some d')
    (hlt : i < j) (hsame : d.assessmentId = d'.assessmentId) :
    ¬d.CanLease ∧ (∀ k, t.step deployment (.drain i (.act (.lease k))) = none) ∧
      t.step deployment (.drain i (.act .submit)) = none := by
  have hinv : t.SingleDrain :=
    h.invariant (singleDrain_init scopes) fun _ _ _ hinv hcond hstep => hinv.step hcond hstep
  obtain ⟨hlive, hnil⟩ := hinv.newest i j d d' hi hj hlt hsame
  refine ⟨?_, ?_, ?_⟩
  · rintro (h | h)
    · simp [hlive] at h
    · exact h hnil
  · intro k
    by_contra hsome
    obtain ⟨u, hu⟩ := Option.ne_none_iff_exists'.mp hsome
    obtain ⟨x, s', x', hx, hmove, -⟩ := World.step_drain hu
    rw [hi] at hx
    cases hx
    exact Drain.submitted_of_lease hmove hnil
  · by_contra hsome
    obtain ⟨u, hu⟩ := Option.ne_none_iff_exists'.mp hsome
    obtain ⟨x, s', x', hx, hmove, -⟩ := World.step_drain hu
    rw [hi] at hx
    cases hx
    have hlive' := Drain.live_of_submit hmove
    simp [hlive] at hlive'

/-! ## A quick resume -/

/-- Two steps that do not depend on each other. -/
def twoSteps : List PlanStep :=
  [⟨"first", "nmap", .passive, .empty, []⟩, ⟨"second", "nmap", .passive, .empty, []⟩]

/-- The drain leases the first of two steps. -/
def firstLease : List WorldLabel :=
  [.drain 0 (.act .dispatchStep), .drain 0 (.act .dispatchStep), .drain 0 (.act .scan),
    .drain 0 .gateRead, .drain 0 (.act .submit), .drain 0 (.act (.lease 0))]

/-- A pause and a resume come while the first step runs: the drain never sees the pause, and leases
the second step after the resume has started another drain. -/
theorem both_drains_lease :
    ∃ t u d d', runLabels (World.step sampleDeployment) sampleWorld
        (startCalls twoSteps {.passive} ++ beginMoves ++ prepareMoves ++ firstLease ++
          [.serve (.pause "asm-a"), .serve (.resume "asm-a"),
            .drain 0 (.act (.report 0 (.result "digest"))), .drain 0 .gateRead,
            .drain 0 .gateClear, .drain 0 (.act .submit)]) = some t ∧
      t.drains[0]? = some d ∧ t.drains[1]? = some d' ∧ d.assessmentId = d'.assessmentId ∧
      d.CanLease ∧ d'.CanLease ∧
      t.step sampleDeployment (.drain 0 (.act (.lease 0))) = some u ∧
      (u.shared.jobs.get? "job:second").map Job.status = some .leased := by
  refine ⟨_, _, _, _, rfl, rfl, rfl, rfl, .inl rfl, .inl rfl, rfl, rfl⟩

/-- The drain consumes the pause after its first step, and ends. -/
def pauseConsumed : List WorldLabel :=
  startCalls twoSteps {.passive} ++ beginMoves ++ prepareMoves ++ firstLease ++
    [.serve (.pause "asm-a"), .drain 0 (.act (.report 0 (.result "digest"))), .drain 0 .gateRead,
      .drain 0 .gateClear, .drain 0 (.finish true)]

theorem earlier_drains_issue_nothing_after_pause :
    ∃ t d d', Reaches (World.step sampleDeployment) ResumesAfterPause sampleWorld t ∧
      t.drains[0]? = some d ∧ t.drains[1]? = some d' ∧ d.assessmentId = d'.assessmentId ∧
      d'.CanLease ∧ ¬d.CanLease ∧
      t.step sampleDeployment (.drain 0 (.act .submit)) = none := by
  obtain ⟨t, ht⟩ : ∃ t, runLabels (World.step sampleDeployment) sampleWorld
      (pauseConsumed ++ [.serve (.resume "asm-a")]) = some t :=
    Option.isSome_iff_exists.mp (by decide +kernel)
  have hmeets : runMeets (World.step sampleDeployment) ResumesAfterPause sampleWorld
      (pauseConsumed ++ [.serve (.resume "asm-a")]) := by
    refine runMeets_append ?_ ?_
    · refine runMeets_of_forall fun l hl w => resumesAfterPause_of_not_resume ?_ w
      have hall : pauseConsumed.all (fun l => !isResume l) = true := by decide +kernel
      simpa using List.all_eq_true.mp hall l hl
    · -- When the resume comes, the drain has consumed the pause and ended.
      intro w hw
      have hended : (w.drains.all fun d => !d.live && d.submitted.isEmpty) = true :=
        eq_of_runLabels (fun w => w.drains.all fun d => !d.live && d.submitted.isEmpty) hw
          (by decide +kernel)
      refine ⟨?_, fun _ _ => trivial⟩
      intro d hd _
      have hquiet := List.all_eq_true.mp hended d hd
      simp only [Bool.and_eq_true, Bool.not_eq_true', List.isEmpty_iff] at hquiet
      exact ⟨hquiet.2, fun hlive => by simp [hquiet.1] at hlive⟩
  have hreach := Reaches.of_runLabels ht hmeets
  obtain ⟨d, d', hdrains⟩ : ∃ d d', t.drains = [d, d'] :=
    List.length_eq_two.mp (eq_of_runLabels (fun w => w.drains.length) ht (by decide +kernel))
  have hseen : t.drains.map (fun d => (d.assessmentId, d.live)) =
      [("asm-a", false), ("asm-a", true)] :=
    eq_of_runLabels (fun w => w.drains.map fun d => (d.assessmentId, d.live)) ht (by decide +kernel)
  simp only [hdrains, List.map_cons, List.map_nil, List.cons.injEq, Prod.mk.injEq,
    and_true] at hseen
  obtain ⟨⟨hid, -⟩, hid', hlive'⟩ := hseen
  have hresult := earlier_drains_issue_nothing hreach (i := 0) (j := 1) (d := d)
    (by simp [hdrains]) (by rw [hdrains]; rfl) Nat.zero_lt_one (hid.trans hid'.symm)
  exact ⟨t, d, d', hreach, by simp [hdrains], by simp [hdrains], hid.trans hid'.symm, .inl hlive',
    hresult.1, hresult.2.2⟩

end World

end SecOpent
