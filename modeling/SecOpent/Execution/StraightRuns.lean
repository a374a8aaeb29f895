import SecOpent.Execution.PauseResume

/-!
# Runs that are not interrupted

A run with pauses is followed by one drain that is never paused. While the first is between two
drains the second waits at its gate, and a resumed drain takes up exactly the targets at that gate;
otherwise both stand at the same stage, on job stores with the same board. The drain that is followed
has observed what the drains before it have observed too, which is nothing.

## Main definitions

* `Engagement.Level`, `StageMatches`: both runs are at the same point
* `Engagement.Over`: the run that is followed has ended

## Main results

* `Engagement.findings_kept`: with undisturbed pauses an assessment completes with the findings of
  every run that is not interrupted
-/

namespace SecOpent

open Python Transition

/-! ## The row of the assessment -/

section Rows

variable {assessmentId : String} {repo repo' : Repositories}

/-- The assessment is running or paused, and nobody asked to cancel it. -/
def IsLive (assessmentId : String) (repo : Repositories) : Prop :=
  ∃ row, repo.assessments.get? assessmentId = some row ∧
    (row.status = .running ∨ row.status = .paused) ∧ row.control ≠ .cancelRequested

/-- The assessment is running, and nothing was asked of it. -/
def IsCalm (assessmentId : String) (repo : Repositories) : Prop :=
  ∃ row, repo.assessments.get? assessmentId = some row ∧ row.status = .running ∧
    row.control = .none

/-- The assessment has this status. -/
def HasStatus (assessmentId : String) (repo : Repositories) (status : AssessmentStatus) : Prop :=
  ∃ row, repo.assessments.get? assessmentId = some row ∧ row.status = status

theorem get?_addAssessment (row : Assessment) (h : row.id = assessmentId) :
    (repo.addAssessment row).assessments.get? assessmentId = some row := by
  rw [Repositories.addAssessment, Table.get?_put, if_pos h.symm]

theorem IsCalm.isLive (h : IsCalm assessmentId repo) : IsLive assessmentId repo := by
  obtain ⟨row, hrow, hstatus, hcontrol⟩ := h
  exact ⟨row, hrow, .inl hstatus, by simp [hcontrol]⟩

theorem IsCalm.readGate (h : IsCalm assessmentId repo) :
    readGate repo assessmentId = (repo, none) := by
  obtain ⟨row, hrow, -, hcontrol⟩ := h
  simp [SecOpent.readGate, hrow, hcontrol]

/-- The gate lets a live assessment pass, or stops it for a pause. -/
theorem IsLive.readGate (h : IsLive assessmentId repo) :
    ∃ repo', IsLive assessmentId repo' ∧
      (readGate repo assessmentId = (repo', none) ∨
        readGate repo assessmentId = (repo', some .paused)) := by
  obtain ⟨row, hrow, hstatus, hcontrol⟩ := h
  have hid : row.id = assessmentId := Table.key_of_get? hrow
  have hcleared : IsLive assessmentId (repo.addAssessment { row with control := .none }) :=
    ⟨_, get?_addAssessment _ hid, hstatus, by simp⟩
  cases hc : row.control with
  | none =>
    refine ⟨repo, ⟨row, hrow, hstatus, hcontrol⟩, .inl ?_⟩
    simp [SecOpent.readGate, hrow, hc]
  | pauseRequested =>
    refine ⟨_, hcleared, .inr ?_⟩
    simp [SecOpent.readGate, hrow, hc]
  | resumeRequested =>
    refine ⟨_, hcleared, .inl ?_⟩
    simp [SecOpent.readGate, hrow, hc]
  | cancelRequested => exact absurd hc hcontrol

/-- A pause or a resume leaves the assessment live. -/
theorem IsLive.of_moveTo {target : AssessmentStatus} {control : ControlState}
    (h : AssessmentService.moveTo repo assessmentId target (some control) = .ok repo')
    (htarget : target = .running ∨ target = .paused) (hcontrol : control ≠ .cancelRequested) :
    IsLive assessmentId repo' := by
  obtain ⟨row, hrow, -, rfl⟩ := moveTo_ok_iff.mp h
  have hid : row.id = assessmentId := Table.key_of_get? hrow
  exact ⟨_, get?_addAssessment _ hid, htarget, hcontrol⟩

/-- The statuses in which finalising leaves an assessment. -/
def isFinal (status : AssessmentStatus) : Prop := status = .completed ∨ status = .failed

theorem moveTo_of_running {row : Assessment} (hrow : repo.assessments.get? assessmentId = some row)
    (hrunning : row.status = .running) {target : AssessmentStatus} (htarget : isFinal target) :
    ∃ repo', AssessmentService.moveTo repo assessmentId target none = .ok repo' ∧
      HasStatus assessmentId repo' target := by
  have hid : row.id = assessmentId := Table.key_of_get? hrow
  have hallowed : target ∈ allowedTransitions row.status := by
    rcases htarget with rfl | rfl <;> simp [hrunning, allowedTransitions]
  refine ⟨_, moveTo_ok_iff.mpr ⟨row, hrow, hallowed, rfl⟩, ?_⟩
  exact ⟨_, get?_addAssessment _ hid, rfl⟩

theorem IsCalm.moveTo_final (h : IsCalm assessmentId repo) {target : AssessmentStatus}
    (htarget : isFinal target) :
    ∃ repo', AssessmentService.moveTo repo assessmentId target none = .ok repo' ∧
      HasStatus assessmentId repo' target := by
  obtain ⟨row, hrow, hrunning, -⟩ := h
  exact moveTo_of_running hrow hrunning htarget

/-- A live assessment ends unless it is paused, and then nothing can end it. -/
theorem IsLive.moveTo_final (h : IsLive assessmentId repo) {target : AssessmentStatus}
    (htarget : isFinal target) :
    (∃ repo', AssessmentService.moveTo repo assessmentId target none = .ok repo' ∧
        HasStatus assessmentId repo' target) ∨
      ((∃ error, AssessmentService.moveTo repo assessmentId target none = .error error) ∧
        failed repo assessmentId = repo) := by
  -- A paused assessment can move to running or cancelled only, so the drain ends in an exception.
  obtain ⟨row, hrow, hrunning | hpaused, -⟩ := h
  · exact .inl (moveTo_of_running hrow hrunning htarget)
  · right
    have herror : ∀ target, isFinal target →
        ∃ error, AssessmentService.moveTo repo assessmentId target none = .error error := by
      intro target htarget
      cases hmove : AssessmentService.moveTo repo assessmentId target none with
      | error error => exact ⟨error, rfl⟩
      | ok repo' =>
        obtain ⟨row', hrow', hallowed, -⟩ := moveTo_ok_iff.mp hmove
        rw [hrow] at hrow'
        cases hrow'
        rcases htarget with rfl | rfl <;> simp [hpaused, allowedTransitions] at hallowed
    refine ⟨herror target htarget, ?_⟩
    obtain ⟨error, hfail⟩ := herror .failed (.inr rfl)
    simp only [failed, AssessmentService.fail, hfail]

theorem hasStatus_unique {status status' : AssessmentStatus}
    (h : HasStatus assessmentId repo status) (h' : HasStatus assessmentId repo status') :
    status = status' := by
  obtain ⟨row, hrow, rfl⟩ := h
  obtain ⟨row', hrow', rfl⟩ := h'
  rw [hrow] at hrow'
  rw [Option.some.inj hrow']

theorem IsLive.not_final (h : IsLive assessmentId repo) {status : AssessmentStatus}
    (hfinal : isFinal status) : ¬HasStatus assessmentId repo status := by
  rintro ⟨row, hrow, hstatus⟩
  obtain ⟨row', hrow', hlive, -⟩ := h
  rw [hrow] at hrow'
  cases hrow'
  rcases hfinal with rfl | rfl <;> simp [hstatus] at hlive

end Rows

/-! ## Boards during a round -/

/-- No job is leased. -/
def NoneLeased (board : List Job) : Prop := ∀ job ∈ board, job.status ≠ .leased

/-- Targets that the round has still to run. -/
structure Waiting (board : List Job) (targets : List (Job × PlanStep)) : Prop where
  ready : ∀ target ∈ targets, target.1 ∈ board ∧ target.1.status = .ready ∧
    target.2.key = target.1.planStepKey
  nodup : (targets.map fun target => target.1.id).Nodup

theorem waiting_readyTargets (plan : ExecutionPlan) (store : JobStore) :
    Waiting store.board (readyTargets plan store.board) :=
  ⟨fun _ h => mem_readyTargets h, readyTargets_nodup store.board_ids_nodup⟩

/-- The targets behind the one that is leased wait on. -/
theorem Waiting.tail {board : List Job} {target : Job × PlanStep} {targets : List (Job × PlanStep)}
    (h : Waiting board (target :: targets)) (change : Job → Job) :
    Waiting (changeJob board target.1.id change) targets ∧
      ∀ other ∈ targets, other.1.id ≠ target.1.id := by
  obtain ⟨hnew, hnodup⟩ := List.nodup_cons.mp h.nodup
  have hne : ∀ other ∈ targets, other.1.id ≠ target.1.id := by
    intro other hother heq
    exact hnew (List.mem_map.mpr ⟨other, hother, heq⟩)
  refine ⟨⟨fun other hother => ?_, hnodup⟩, hne⟩
  obtain ⟨hmem, hready, hkey⟩ := h.ready other (by simp [hother])
  exact ⟨mem_changeJob.mpr (.inr ⟨hmem, hne other hother⟩), hready, hkey⟩

theorem Waiting.changeJob {board : List Job} {targets : List (Job × PlanStep)} {id : String}
    (h : Waiting board targets) (hid : ∀ target ∈ targets, target.1.id ≠ id) (change : Job → Job) :
    Waiting (changeJob board id change) targets := by
  refine ⟨fun target htarget => ?_, h.nodup⟩
  obtain ⟨hmem, hready, hkey⟩ := h.ready target htarget
  exact ⟨mem_changeJob.mpr (.inr ⟨hmem, hid target htarget⟩), hready, hkey⟩

/-- The steps whose observations are kept have succeeded. -/
def Recorded (board : List Job) (items : List (String × List Observation)) : Prop :=
  ∀ item ∈ items, ∃ job ∈ board, job.id = "job:" ++ item.1 ∧ job.status = .succeeded

theorem Recorded.changeJob {board : List Job} {items : List (String × List Observation)}
    {id : String} (h : Recorded board items)
    (hid : ∀ job ∈ board, job.id = id → job.status ≠ .succeeded) (change : Job → Job) :
    Recorded (changeJob board id change) items := by
  intro item hitem
  obtain ⟨job, hjob, hname, hstatus⟩ := h item hitem
  have hne : job.id ≠ id := fun heq => hid job hjob heq hstatus
  exact ⟨job, mem_changeJob.mpr (.inr ⟨hjob, hne⟩), hname, hstatus⟩

theorem Recorded.resolved {store : JobStore} {items : List (String × List Observation)}
    (h : Recorded store.board items) (backend : Backend) :
    Recorded (resolved backend store.board) items := by
  intro item hitem
  obtain ⟨job, hjob, hname, hstatus⟩ := h item hitem
  have hnot : job.id ∉ unblockedIds store.board := by
    intro hmem
    obtain ⟨blocked, hblocked, hid⟩ := List.mem_map.mp hmem
    obtain ⟨hboard, hcond⟩ := List.mem_filter.mp hblocked
    rw [JobStore.eq_of_mem_board hboard hjob hid, hstatus] at hcond
    exact absurd hcond (by simp)
  exact ⟨job, List.mem_map.mpr ⟨job, hjob, if_neg hnot⟩, hname, hstatus⟩

theorem NoneLeased.resolved {board : List Job} (h : NoneLeased board) (backend : Backend) :
    NoneLeased (resolved backend board) := by
  intro job hjob
  obtain ⟨old, hold, rfl⟩ := List.mem_map.mp hjob
  split_ifs
  · simp
  · exact h old hold

/-- What finalising makes of the assessment when nothing was found now. -/
def finalStatus (board : List Job) : AssessmentStatus :=
  if board.any fun job => job.status == .succeeded then .completed else .failed

theorem any_succeeded_board (store : JobStore) :
    (store.board.any fun job => job.status == .succeeded) =
      store.all.any fun job => job.status == .succeeded := by
  rw [JobStore.board, List.any_map]
  rfl

/-! ## Two runs at the same point -/

namespace Engagement

variable (E : Engagement)

/-- There is nothing to lease, or the rounds of one drain are used up. -/
def Exhausted (s : RunState) : Prop :=
  maxRounds ≤ s.rounds ∨ readyTargets E.plan s.jobs.board = []

/-- Before the plan is dispatched. -/
structure Before (s u : RunState) (d e : RunThread) : Prop where
  jobs : s.jobs = u.jobs
  findings : s.findings = u.findings
  fresh : FreshStore E.plan s.jobs
  rounds : s.rounds = 0
  kinds : d.kind = .execute ∧ e.kind = .execute
  observations : d.observations = .empty ∧ e.observations = .empty
  stage : (d.stage = .queued ∧ e.stage = .queued ∧ s.repo = u.repo ∧ ∃ row,
      s.repo.assessments.get? E.assessmentId = some row ∧ row.status = .queued ∧
        row.control = .none) ∨
    (d.stage = .dispatch ∧ e.stage = .dispatch ∧ IsLive E.assessmentId s.repo ∧
      IsCalm E.assessmentId u.repo)

/-- What two runs at the same point of the plan share. The drain that is followed has observed
everything, the last of the others what was not lost: and nothing was. -/
structure Level (s u : RunState) (d e : RunThread) : Prop where
  board : s.jobs.board = u.jobs.board
  findings : s.findings = u.findings
  dispatched : Dispatched E.plan s.jobs.board
  observed : ∃ lost, e.observations.items = lost ++ d.observations.items ∧
    ∀ item ∈ lost, item.2 = []
  recorded : Recorded s.jobs.board e.observations.items
  live : IsLive E.assessmentId s.repo
  calm : IsCalm E.assessmentId u.repo

/-- A drain that has ended, or was resumed and has not scanned yet. -/
def Rests (d : RunThread) : Prop :=
  d.stage = .finished ∨
    (d.kind = .resume ∧ (d.stage = .queued ∨ d.stage = .dispatch ∨ d.stage = .scan maxRounds))

/-- How far two rounds have come: both have the same targets left, and the drain that is followed
has no more rounds left than the other. -/
structure SameRound (s : RunState) (kind : DrainKind) (l l' : ℕ) (ts ts' : List (Job × PlanStep)) :
    Prop where
  targets : ts.map untimedTarget = ts'.map untimedTarget
  rounds : s.rounds + l' + 1 = maxRounds
  le : l' ≤ l
  execute : kind = .execute → l = l'
  waiting : Waiting s.jobs.board (ts.map untimedTarget)

/-- Where two drains stand when they are at the same point. -/
inductive StageMatches (s : RunState) (d e : RunThread) : Prop
  | scanning {l l' : ℕ} (hd : d.stage = .scan l) (he : e.stage = .scan l')
      (hrounds : s.rounds + l' = maxRounds) (hle : l' ≤ l) (hexecute : d.kind = .execute → l = l')
      (hsettled : unblockedIds s.jobs.board = []) (hleased : NoneLeased s.jobs.board)
  | asking {l l' : ℕ} {x x' : Bool} {ts ts' : List (Job × PlanStep)} (hd : d.stage = .gate l x ts)
      (he : e.stage = .gate l' x' ts') (hround : SameRound s d.kind l l' ts ts')
      (hempty : ts = [] → x = x' ∧ (x = false →
        unblockedIds s.jobs.board = [] ∧ readyTargets E.plan s.jobs.board = []))
      (hleased : NoneLeased s.jobs.board)
  | executing {l l' : ℕ} {leased leased' : Job} {step : PlanStep} {ts ts' : List (Job × PlanStep)}
      (hd : d.stage = .running l leased step ts) (he : e.stage = .running l' leased' step ts')
      (hround : SameRound s d.kind l l' ts ts') (hjob : leased.untimed = leased'.untimed)
      (hmem : leased.untimed ∈ s.jobs.board) (hstatus : leased.status = .leased)
      (hkey : step.key = leased.planStepKey)
      (hothers : ∀ job ∈ s.jobs.board, job.status = .leased → job.id = leased.id)
      (hapart : ∀ target ∈ ts, target.1.id ≠ leased.id)
  /-- Between two drains, the run that is followed waits at its gate. -/
  | resting {l' : ℕ} {x' : Bool} {ts' : List (Job × PlanStep)} (hd : Rests d)
      (he : e.stage = .gate l' x' ts') (hne : ts' ≠ [])
      (htargets : readyTargets E.plan s.jobs.board = ts'.map untimedTarget)
      (hrounds : s.rounds + l' + 1 = maxRounds) (hleased : NoneLeased s.jobs.board)
      (hnothing : ∀ item ∈ d.observations.items, item.2 = [])
  /-- No step is left, or no round. -/
  | ending (hd : d.stage = .finalize ∨ ∃ l, d.stage = .gate l false []) (he : e.stage = .finalize)
      (hsettled : unblockedIds s.jobs.board = []) (hleased : NoneLeased s.jobs.board)
      (hexhausted : E.Exhausted s)

/-- The stages of a drain that has nothing to do any more. -/
inductive OverStage (board : List Job) (d : RunThread) : Prop
  | finished (hd : d.stage = .finished)
  | completing (hd : d.stage = .complete) (hstatus : finalStatus board = .completed)
  | idle (hkind : d.kind = .resume)
      (hd : d.stage = .queued ∨ d.stage = .dispatch ∨ (∃ l, d.stage = .scan l) ∨
        (∃ l, d.stage = .gate l false []) ∨ d.stage = .finalize)
      (hnothing : ∀ item ∈ d.observations.items, item.2 = [])

/-- The run that is followed has ended, and the other has its findings. -/
structure Over (s u : RunState) (d e : RunThread) : Prop where
  ended : e.stage = .finished
  findings : s.findings = u.findings
  dispatched : Dispatched E.plan s.jobs.board
  settled : unblockedIds s.jobs.board = []
  none_leased : NoneLeased s.jobs.board
  exhausted : E.Exhausted s
  outcome : HasStatus E.assessmentId u.repo (finalStatus s.jobs.board)
  stage : OverStage s.jobs.board d
  status : IsLive E.assessmentId s.repo ∨
    (d.stage = .finished ∧ HasStatus E.assessmentId s.repo (finalStatus s.jobs.board))

/-- The run `u` with its one drain `e` is where the run `s` with its last drain `d` is. -/
inductive Matches (s u : RunState) (d e : RunThread) : Prop
  | before (h : E.Before s u d e)
  | level (h : E.Level s u d e) (hstage : E.StageMatches s d e)
  | past (h : E.Over s u d e)

/-- The moves of the drain that is followed. -/
def follow (p : RunState × RunThread) (_ : Unit) : Option (RunState × RunThread) :=
  E.advance p.1 p.2 0

/-- The drain that is followed moves on. -/
def Follows (u : RunState) (e : RunThread) (u' : RunState) (e' : RunThread) : Prop :=
  Reaches E.follow (fun _ _ => True) (u, e) (u', e')

section Steps

variable {E} {s s' u : RunState} {d d' e : RunThread} {clock : Time}

theorem Follows.refl : E.Follows u e u e := Reaches.refl

theorem Follows.step {u' u'' : RunState} {e' e'' : RunThread} (h : E.Follows u e u' e')
    (hstep : E.advance u' e' 0 = some (u'', e'')) : E.Follows u e u'' e'' :=
  Reaches.tail (l := ()) h trivial hstep

/-- The stages of the drains are no part of what they share. -/
theorem Level.withStage (h : E.Level s u d e) (stage stage' : Stage) :
    E.Level s u { d with stage } { e with stage := stage' } :=
  ⟨h.board, h.findings, h.dispatched, h.observed, h.recorded, h.live, h.calm⟩

theorem Level.flatten_eq (h : E.Level s u d e) :
    e.observations.values.flatten = d.observations.values.flatten := by
  obtain ⟨lost, hitems, hlost⟩ := h.observed
  have hnil : (lost.map Prod.snd).flatten = [] := by
    rw [List.flatten_eq_nil_iff]
    intro stored hstored
    obtain ⟨item, hitem, rfl⟩ := List.mem_map.mp hstored
    exact hlost item hitem
  rw [Dict.values, hitems, List.map_append, List.flatten_append, hnil, List.nil_append, Dict.values]

theorem roundTargets_eq_nil {plan : ExecutionPlan} {store : JobStore} {now : Time}
    (hleased : NoneLeased store.board) (h : readyTargets plan store.board = []) :
    Orchestrator.roundTargets plan store now = [] := by
  rw [← roundTargets_untimed hleased] at h
  exact List.map_eq_nil_iff.mp h

/-- Two scans of stores with one board start the same round. -/
theorem sameRound_scan {l l' : ℕ} (hboard : s.jobs.board = u.jobs.board)
    (hleased : NoneLeased s.jobs.board) (hrounds : s.rounds + l' + 1 = maxRounds) (hle : l' ≤ l)
    {kind : DrainKind} (hexecute : kind = .execute → l = l') (now now' : Time) :
    SameRound s kind l l' (Orchestrator.roundTargets E.plan s.jobs now)
      (Orchestrator.roundTargets E.plan u.jobs now') := by
  have htargets := @roundTargets_untimed E.plan s.jobs now hleased
  have hleased' : NoneLeased u.jobs.board := hboard ▸ hleased
  refine ⟨?_, hrounds, hle, hexecute, ?_⟩
  · rw [htargets, roundTargets_untimed hleased', hboard]
  · rw [htargets]
    exact waiting_readyTargets E.plan s.jobs

/-- Both drains scan for the next round. -/
theorem matches_scanning {l l' : ℕ} (hl : E.Level s u d e) (hd : d.stage = .scan l)
    (he : e.stage = .scan l') (hrounds : s.rounds + l' = maxRounds) (hle : l' ≤ l)
    (hexecute : d.kind = .execute → l = l') (hsettled : unblockedIds s.jobs.board = [])
    (hleased : NoneLeased s.jobs.board)
    (hcond : d.kind = .resume → s.rounds < maxRounds ∨
      Orchestrator.roundTargets E.plan s.jobs d.now = [])
    (h : E.advance s d clock = some (s', d')) :
    ∃ u' e', E.Follows u e u' e' ∧ E.Matches s' u' d' e' := by
  cases l with
  | zero =>
    -- No round is left in either of them.
    obtain rfl := Nat.le_zero.mp hle
    rw [advance_scan_zero hd] at h
    cases h
    exact ⟨u, _, Follows.refl.step (advance_scan_zero he), .level (hl.withStage _ _)
      (.ending (.inl rfl) rfl hsettled hleased (.inl hrounds.ge))⟩
  | succ l =>
    rw [advance_scan_succ hd] at h
    cases h
    cases l' with
    | zero =>
      -- Only a resumed drain has a round left.
      have hresume : d.kind = .resume := by
        cases hkind : d.kind with
        | execute => exact absurd (hexecute hkind) (Nat.succ_ne_zero l)
        | resume => rfl
      have hnil := (hcond hresume).resolve_left hrounds.not_lt
      rw [hnil]
      exact ⟨u, _, Follows.refl.step (advance_scan_zero he), .level (hl.withStage _ _)
        (.ending (.inr ⟨l, rfl⟩) rfl hsettled hleased (.inl hrounds.ge))⟩
    | succ l' =>
      refine ⟨u, _, Follows.refl.step (advance_scan_succ he), .level (hl.withStage _ _)
        (.asking rfl rfl ?_ (fun hnil => ⟨rfl, fun _ => ⟨hsettled, ?_⟩⟩) hleased)⟩
      · exact sameRound_scan hl.board hleased hrounds (Nat.le_of_succ_le_succ hle)
          (fun hkind => Nat.succ.inj (hexecute hkind)) _ _
      · rw [← roundTargets_untimed hleased, hnil]
        rfl

/-- Dependencies are resolved in both stores. -/
theorem Level.resolve (h : E.Level s u d e) (stage stage' : Stage) :
    E.Level
      { s with
        jobs := Orchestrator.resolveDependencies E.backend s.jobs
        rounds := s.rounds + 1 }
      { u with
        jobs := Orchestrator.resolveDependencies E.backend u.jobs
        rounds := u.rounds + 1 }
      { d with stage } { e with stage := stage' } := by
  refine ⟨?_, h.findings, ?_, h.observed, ?_, h.live, h.calm⟩
  · rw [board_resolveDependencies, board_resolveDependencies, h.board]
  · rw [board_resolveDependencies]
    exact h.dispatched.resolved E.backend
  · rw [board_resolveDependencies]
    exact h.recorded.resolved E.backend

/-- The same job is changed in both stores, one that has not succeeded yet. -/
theorem Level.change (h : E.Level s u d e) {id : String} {change : Job → Job}
    {jobs jobs' : JobStore} (hs : jobs.board = changeJob s.jobs.board id change)
    (hu : jobs'.board = changeJob u.jobs.board id change) (hkeeps : KeepsIdentity change)
    (hold : ∀ job ∈ s.jobs.board, job.id = id → job.status ≠ .succeeded) {repo : Repositories}
    (hlive : IsLive E.assessmentId repo) (stage stage' : Stage) :
    E.Level { s with repo, jobs } { u with jobs := jobs' } { d with stage }
      { e with stage := stage' } := by
  refine ⟨?_, h.findings, ?_, h.observed, ?_, hlive, h.calm⟩
  · rw [hs, hu, h.board]
  · rw [hs]
    exact h.dispatched.changeJob hkeeps id
  · rw [hs]
    exact h.recorded.changeJob hold change

/-- Both drains are through with the targets of a round. -/
theorem matches_round_end {l l' : ℕ} {x : Bool} (hl : E.Level s u d e)
    (hd : d.stage = .gate l x []) (he : e.stage = .gate l' x [])
    (hrounds : s.rounds + l' + 1 = maxRounds) (hle : l' ≤ l)
    (hexecute : d.kind = .execute → l = l')
    (hidle : x = false →
      unblockedIds s.jobs.board = [] ∧ readyTargets E.plan s.jobs.board = [])
    (hleased : NoneLeased s.jobs.board) (h : E.advance s d clock = some (s', d')) :
    ∃ u' e', E.Follows u e u' e' ∧ E.Matches s' u' d' e' := by
  rw [advance_gate_nil hd] at h
  cases h
  -- Both resolve the dependencies; what is left to show is the stage that follows.
  refine ⟨_, _, Follows.refl.step (advance_gate_nil he), .level (hl.resolve _ _) ?_⟩
  have hboard := board_resolveDependencies E.backend s.jobs
  have hleased' : NoneLeased (Orchestrator.resolveDependencies E.backend s.jobs).board := by
    rw [hboard]
    exact hleased.resolved E.backend
  have hsettled' : unblockedIds (Orchestrator.resolveDependencies E.backend s.jobs).board = [] := by
    rw [hboard]
    exact unblockedIds_resolved E.backend _
  cases x with
  | true =>
    refine .scanning rfl rfl ?_ hle hexecute hsettled' hleased'
    show s.rounds + 1 + l' = maxRounds
    omega
  | false =>
    -- No step was run, so nothing has changed since the scan.
    obtain ⟨hsettled, hnone⟩ := hidle rfl
    refine .ending (.inl rfl) rfl hsettled' hleased' (.inr ?_)
    show readyTargets E.plan (Orchestrator.resolveDependencies E.backend s.jobs).board = []
    rw [resolveDependencies_eq_self hsettled]
    exact hnone

/-- The pause takes effect: the run that is followed waits at its gate. -/
theorem matches_paused {l l' : ℕ} {x' : Bool} {target : Job × PlanStep}
    {targets ts' : List (Job × PlanStep)} (hl : E.Level s u d e)
    (he : e.stage = .gate l' x' ts')
    (hround : SameRound s d.kind l l' (target :: targets) ts') (hleased : NoneLeased s.jobs.board)
    (hobserved : d.observations.values.flatten = [])
    (hleft : Orchestrator.roundTargets E.plan s.jobs d.now = target :: targets)
    {repo : Repositories} (hlive : IsLive E.assessmentId repo) :
    E.Matches { s with repo } u d.ended e := by
  have hne : ts' ≠ [] := by
    rintro rfl
    simpa using hround.targets
  have htargets : readyTargets E.plan s.jobs.board = ts'.map untimedTarget := by
    -- The jobs that are ready are those at the gate, by the condition on the pause.
    rw [← roundTargets_untimed hleased, hleft, hround.targets]
  refine .level ⟨hl.board, hl.findings, hl.dispatched, hl.observed, hl.recorded, hlive, hl.calm⟩
    (.resting (.inl rfl) he hne htargets hround.rounds hleased ?_)
  intro item hitem
  exact List.flatten_eq_nil_iff.mp hobserved item.2 (List.mem_map_of_mem hitem)

/-- The gate passes, and both drains lease the job of the next target. -/
theorem matches_passed {l l' : ℕ} {x x' : Bool} {job job' : Job} {step step' : PlanStep}
    {targets targets' : List (Job × PlanStep)} (hl : E.Level s u d e)
    (hd : d.stage = .gate l x ((job, step) :: targets))
    (he : e.stage = .gate l' x' ((job', step') :: targets'))
    (hround : SameRound s d.kind l l' ((job, step) :: targets) ((job', step') :: targets'))
    (hleased : NoneLeased s.jobs.board) {repo : Repositories} (hlive : IsLive E.assessmentId repo)
    (hgate : readGate s.repo E.assessmentId = (repo, none))
    (h : E.advance s d clock = some (s', d')) :
    ∃ u' e', E.Follows u e u' e' ∧ E.Matches s' u' d' e' := by
  obtain ⟨hhead, htail⟩ := List.cons.inj hround.targets
  obtain ⟨hjob, rfl⟩ := Prod.mk.inj hhead
  have hid : job.id = job'.id := by simpa using congrArg Job.id hjob
  obtain ⟨hmem, hready, hkey⟩ := hround.waiting.ready (untimedTarget (job, step)) (by simp)
  obtain ⟨hwaiting, hapart⟩ := hround.waiting.tail leasedJob
  -- Both leases succeed on the same job of the board.
  obtain ⟨jobs, leased, hlease⟩ := exists_lease hmem hready E.leaseTtl d.now
  obtain ⟨jobs', leased', hlease'⟩ := exists_lease (hl.board ▸ hmem) hready E.leaseTtl e.now
  obtain ⟨hboard, found, hfound, hfoundId, hleasedJob⟩ := board_lease hlease
  obtain ⟨hboard', found', hfound', hfoundId', hleasedJob'⟩ := board_lease hlease'
  have hsame : found = job.untimed := JobStore.eq_of_mem_board hfound hmem hfoundId
  have hsame' : found' = job.untimed :=
    JobStore.eq_of_mem_board hfound' (hl.board ▸ hmem) hfoundId'
  subst hsame hsame'
  rw [advance_gate_passed hd hgate hlease] at h
  cases h
  -- The jobs of the two stores have one name.
  have hlease'' : u.jobs.lease E.leaseTtl job'.id leaseOwnerName e.now = .ok (jobs', leased') := by
    rw [← hid]
    exact hlease'
  refine ⟨_, _, Follows.refl.step (advance_gate_passed he hl.calm.readGate hlease''), ?_⟩
  have hnew : ∀ other ∈ s.jobs.board, other.id = job.id → other.status ≠ .succeeded := by
    intro other hother hotherId
    rw [JobStore.eq_of_mem_board hother hmem hotherId, hready]
    exact JobStatus.noConfusion
  have hleasedId : leased.id = job.id := by
    have hids := congrArg Job.id hleasedJob
    exact hids
  refine .level (hl.change hboard hboard' keepsIdentity_leasedJob hnew hlive _ _)
    (.executing rfl rfl ⟨htail, hround.rounds, hround.le, hround.execute, ?_⟩
      (hleasedJob.trans hleasedJob'.symm) ?_ ?_ ?_ ?_ ?_)
  · show Waiting jobs.board _
    rw [hboard]
    exact hwaiting
  · show leased.untimed ∈ jobs.board
    rw [hboard, hleasedJob]
    exact mem_changeJob.mpr (.inl ⟨_, hmem, rfl, rfl⟩)
  · exact congrArg Job.status hleasedJob
  · exact hkey.trans (congrArg Job.planStepKey hleasedJob).symm
  · intro other hother hstatus
    change other ∈ jobs.board at hother
    rw [hboard] at hother
    rw [hleasedId]
    -- The leased job is the only one.
    rcases mem_changeJob.mp hother with ⟨old, -, holdId, rfl⟩ | ⟨hold, -⟩
    · exact holdId
    · exact absurd hstatus (hleased other hold)
  · intro target htarget
    rw [hleasedId]
    exact hapart (untimedTarget target) (List.mem_map_of_mem htarget)

/-- Both drains keep the observations of a step that they had none of. -/
theorem Level.observe (h : E.Level s u d e) {key : String}
    (hnew : key ∉ e.observations.items.map Prod.fst)
    (hdone : ∃ job ∈ s.jobs.board, job.id = "job:" ++ key ∧ job.status = .succeeded)
    (stored : List Observation) :
    E.Level s u { d with observations := d.observations.set key stored }
      { e with observations := e.observations.set key stored } := by
  obtain ⟨lost, hitems, hlost⟩ := h.observed
  have hnew' : key ∉ d.observations.items.map Prod.fst := by
    intro hmem
    refine hnew ?_
    rw [hitems, List.map_append, List.mem_append]
    exact .inr hmem
  have hd : (d.observations.set key stored).items = d.observations.items ++ [(key, stored)] :=
    Dict.assign_of_notMem hnew'
  have he : (e.observations.set key stored).items = e.observations.items ++ [(key, stored)] :=
    Dict.assign_of_notMem hnew
  refine ⟨h.board, h.findings, h.dispatched, ⟨lost, ?_, hlost⟩, ?_, h.live, h.calm⟩
  · rw [hd, he, hitems, List.append_assoc]
  · intro item hitem
    rw [he, List.mem_append, List.mem_singleton] at hitem
    rcases hitem with hitem | rfl
    · exact h.recorded item hitem
    · exact hdone

/-- What a report does to the job depends on its attempts only. -/
theorem reported_congr {leased leased' : Job} (h : leased.untimed = leased'.untimed) :
    reported leased = reported leased' := by
  have huntimed : ∀ job : Job, reported job.untimed = reported job := by
    intro job
    funext outcome
    cases outcome <;> rfl
  rw [← huntimed leased, h, huntimed]

/-- Both drains report the outcome of the step they run. -/
theorem matches_reported {l l' : ℕ} {leased leased' : Job} {step : PlanStep}
    {ts ts' : List (Job × PlanStep)} (hl : E.Level s u d e)
    (hd : d.stage = .running l leased step ts) (he : e.stage = .running l' leased' step ts')
    (hround : SameRound s d.kind l l' ts ts') (hjob : leased.untimed = leased'.untimed)
    (hmem : leased.untimed ∈ s.jobs.board) (hstatus : leased.status = .leased)
    (hkey : step.key = leased.planStepKey)
    (hothers : ∀ job ∈ s.jobs.board, job.status = .leased → job.id = leased.id)
    (hapart : ∀ target ∈ ts, target.1.id ≠ leased.id) (h : E.advance s d clock = some (s', d')) :
    ∃ u' e', E.Follows u e u' e' ∧ E.Matches s' u' d' e' := by
  have hattempt : leased.attempt = leased'.attempt := by
    have hattempts := congrArg Job.attempt hjob
    exact hattempts
  have hid : leased.id = leased'.id := by
    have hids := congrArg Job.id hjob
    exact hids
  have hmem' : leased.untimed ∈ u.jobs.board := hl.board ▸ hmem
  -- Both reports find the job, and change it in the same way.
  obtain ⟨jobs, hreport⟩ := JobStore.exists_update hmem leased.untimed_id
    (reported leased (E.outcome (E.outputs step leased.attempt)))
  obtain ⟨jobs', hreport'⟩ := JobStore.exists_update hmem' (leased.untimed_id.trans hid)
    (reported leased' (E.outcome (E.outputs step leased'.attempt)))
  rw [← reportOutcome_eq_update] at hreport hreport'
  have hboard := board_reportOutcome hreport
  have hboard' := board_reportOutcome hreport'
  rw [← hid, ← reported_congr hjob, ← hattempt] at hboard'
  rw [advance_running hd hreport] at h
  cases h
  refine ⟨_, _, Follows.refl.step (advance_running he hreport'), ?_⟩
  rw [← hattempt]
  have hunique : ∀ job ∈ s.jobs.board, job.id = leased.id → job = leased.untimed := by
    intro job hmemJob hjobId
    exact JobStore.eq_of_mem_board hmemJob hmem hjobId
  have hnew : ∀ job ∈ s.jobs.board, job.id = leased.id → job.status ≠ .succeeded := by
    intro job hmemJob hjobId
    rw [hunique job hmemJob hjobId, Job.untimed_status, hstatus]
    exact JobStatus.noConfusion
  have hname : leased.id = "job:" ++ step.key := by
    rw [hkey]
    exact hl.dispatched.named leased.untimed hmem
  have hlevel := hl.change hboard hboard'
    (keepsIdentity_reported leased (E.outcome (E.outputs step leased.attempt))) hnew hl.live
    (.gate l true ts) (.gate l' true ts')
  have hmatch : E.StageMatches { s with jobs }
      { d with
        stage := .gate l true ts
        observations := record d.observations step (E.outputs step leased.attempt) }
      { e with
        stage := .gate l' true ts'
        observations := record e.observations step (E.outputs step leased.attempt) } := by
    refine .asking rfl rfl ⟨hround.targets, hround.rounds, hround.le, hround.execute, ?_⟩
      (fun _ => ⟨rfl, Bool.noConfusion⟩) ?_
    · show Waiting jobs.board _
      rw [hboard]
      refine hround.waiting.changeJob (fun target htarget => ?_) _
      obtain ⟨timed, htimed, rfl⟩ := List.mem_map.mp htarget
      exact hapart timed htimed
    · intro job hmemJob
      change job ∈ jobs.board at hmemJob
      rw [hboard] at hmemJob
      rcases mem_changeJob.mp hmemJob with ⟨old, -, -, rfl⟩ | ⟨hold, hne⟩
      -- A report ends the lease, and nobody else held one.
      · exact reported_status_ne_leased _ _ old
      · exact fun hleased => hne (hothers job hold hleased)
  refine .level ?_ hmatch
  cases houtput : E.outputs step leased.attempt with
  | error failure => exact hlevel
  | ok stored =>
    -- The step had not succeeded before, so nothing is kept under its key yet.
    have hfresh : step.key ∉ e.observations.items.map Prod.fst := by
      intro hkept
      obtain ⟨item, hitem, hitemKey⟩ := List.mem_map.mp hkept
      obtain ⟨job, hmemJob, hjobId, hsucceeded⟩ := hl.recorded item hitem
      rw [hitemKey, ← hname] at hjobId
      exact hnew job hmemJob hjobId hsucceeded
    have hdone : ∃ job ∈ jobs.board, job.id = "job:" ++ step.key ∧ job.status = .succeeded := by
      rw [hboard, houtput]
      exact ⟨_, mem_changeJob.mpr (.inl ⟨_, hmem, rfl, rfl⟩), hname, rfl⟩
    exact hlevel.observe hfresh hdone stored

/-- Between two drains nothing happens to the jobs, and the next scan finds the targets that the run
that is followed has at its gate. -/
theorem matches_resting {l' : ℕ} {x' : Bool} {ts' : List (Job × PlanStep)} (hl : E.Level s u d e)
    (hd : Rests d) (he : e.stage = .gate l' x' ts') (hne : ts' ≠ [])
    (htargets : readyTargets E.plan s.jobs.board = ts'.map untimedTarget)
    (hrounds : s.rounds + l' + 1 = maxRounds) (hleased : NoneLeased s.jobs.board)
    (hnothing : ∀ item ∈ d.observations.items, item.2 = [])
    (h : E.advance s d clock = some (s', d')) :
    ∃ u' e', E.Follows u e u' e' ∧ E.Matches s' u' d' e' := by
  refine ⟨u, e, Follows.refl, ?_⟩
  rcases hd with hd | ⟨hkind, hd | hd | hd⟩
  · rw [advance_finished hd] at h
    cases h
  · rw [advance_resumed hd hkind] at h
    cases h
    exact .level (hl.withStage _ e.stage)
      (.resting (.inr ⟨hkind, .inr (.inl rfl)⟩) he hne htargets hrounds hleased hnothing)
  · rw [advance_dispatch hd, dispatch_eq_self hl.dispatched] at h
    cases h
    refine .level ?_
      (.resting (.inr ⟨hkind, .inr (.inr rfl)⟩) he hne htargets hrounds hleased hnothing)
    exact ⟨hl.board, hl.findings, hl.dispatched, hl.observed, hl.recorded, hl.live, hl.calm⟩
  -- The first scan of the resumed drain: both are at the gate again.
  · rw [advance_scan_succ (show d.stage = .scan (99 + 1) from hd)] at h
    cases h
    have hscan := @roundTargets_untimed E.plan s.jobs d.now hleased
    refine .level (hl.withStage _ e.stage) (.asking rfl he ⟨?_, hrounds, ?_, ?_, ?_⟩ ?_ hleased)
    · rw [hscan, htargets]
    · show l' ≤ 99
      unfold maxRounds at hrounds
      omega
    · intro hexecute
      rw [hkind] at hexecute
      cases hexecute
    · rw [hscan]
      exact waiting_readyTargets E.plan s.jobs
    · intro hnil
      rw [hnil, htargets] at hscan
      exact absurd (List.map_eq_nil_iff.mp hscan.symm) hne

/-- Completing a live assessment, or nothing when it is paused. -/
theorem advance_complete_live (hd : d.stage = .complete) (hlive : IsLive E.assessmentId s.repo) :
    (∃ repo, E.advance s d clock = some ({ s with repo }, d.ended) ∧
        HasStatus E.assessmentId repo .completed) ∨
      E.advance s d clock = some (s, d.ended) := by
  rw [advance_complete hd, AssessmentService.complete]
  rcases hlive.moveTo_final (.inl rfl) with ⟨repo, hok, hstatus⟩ | ⟨⟨error, herror⟩, hfailed⟩
  · rw [hok]
    exact .inl ⟨repo, rfl, hstatus⟩
  · rw [herror]
    exact .inr (congrArg some (raised_eq hfailed))

/-- Failing a live assessment, or nothing when it is paused. -/
theorem advance_fail_live (hd : d.stage = .finalize) (hempty : E.isEmptyExecution s d = true)
    (hlive : IsLive E.assessmentId s.repo) :
    (∃ repo, E.advance s d clock = some ({ s with repo }, d.ended) ∧
        HasStatus E.assessmentId repo .failed) ∨
      E.advance s d clock = some (s, d.ended) := by
  rw [advance_finalize_empty hd hempty, AssessmentService.fail]
  rcases hlive.moveTo_final (.inr rfl) with ⟨repo, hok, hstatus⟩ | ⟨⟨error, herror⟩, hfailed⟩
  · rw [hok]
    exact .inl ⟨repo, rfl, hstatus⟩
  · rw [herror]
    exact .inr (congrArg some (raised_eq hfailed))

theorem advance_complete_calm (hd : d.stage = .complete) (hcalm : IsCalm E.assessmentId s.repo) :
    ∃ repo, E.advance s d clock = some ({ s with repo }, d.ended) ∧
      HasStatus E.assessmentId repo .completed := by
  obtain ⟨repo, hok, hstatus⟩ := hcalm.moveTo_final (.inl rfl)
  refine ⟨repo, ?_, hstatus⟩
  rw [advance_complete hd, AssessmentService.complete, hok]

theorem advance_fail_calm (hd : d.stage = .finalize) (hempty : E.isEmptyExecution s d = true)
    (hcalm : IsCalm E.assessmentId s.repo) :
    ∃ repo, E.advance s d clock = some ({ s with repo }, d.ended) ∧
      HasStatus E.assessmentId repo .failed := by
  obtain ⟨repo, hok, hstatus⟩ := hcalm.moveTo_final (.inr rfl)
  refine ⟨repo, ?_, hstatus⟩
  rw [advance_finalize_empty hd hempty, AssessmentService.fail, hok]

theorem Level.found_eq (h : E.Level s u d e) : E.found e = E.found d := by
  rw [found, found, h.flatten_eq]

theorem Level.isEmptyExecution_eq (h : E.Level s u d e) :
    E.isEmptyExecution u e = E.isEmptyExecution s d := by
  rw [isEmptyExecution, isEmptyExecution, h.found_eq, ← any_succeeded_board, ← any_succeeded_board,
    h.board]

/-- What was found was observed by a step that has succeeded. -/
theorem Level.finalStatus_of_found (h : E.Level s u d e) (hfound : E.isEmptyExecution s d = false) :
    finalStatus s.jobs.board = .completed := by
  rw [isEmptyExecution, Bool.and_eq_false_iff, Bool.not_eq_false', ← any_succeeded_board] at hfound
  rcases hfound with hfound | hsucceeded
  · have hne : d.observations.values.flatten ≠ [] := by
      intro hnil
      simp [found, hnil, correlate, groupByFingerprint] at hfound
    obtain ⟨observation, hobservation⟩ := List.exists_mem_of_ne_nil _ hne
    obtain ⟨stored, hstored, -⟩ := List.mem_flatten.mp hobservation
    obtain ⟨item, hitem, -⟩ := List.mem_map.mp hstored
    obtain ⟨lost, hitems, -⟩ := h.observed
    obtain ⟨job, hjob, -, hstatus⟩ := h.recorded item (by rw [hitems]; simp [hitem])
    rw [finalStatus, if_pos (List.any_eq_true.mpr ⟨job, hjob, by simp [hstatus]⟩)]
  · rw [finalStatus, if_pos hsucceeded]

theorem finalStatus_of_empty (hempty : E.isEmptyExecution s d = true) :
    finalStatus s.jobs.board = .failed := by
  rw [isEmptyExecution, Bool.and_eq_true, Bool.not_eq_true', ← any_succeeded_board] at hempty
  rw [finalStatus, hempty.2]
  rfl

/-- Both drains finalise. -/
theorem matches_ending (hl : E.Level s u d e)
    (hd : d.stage = .finalize ∨ ∃ l, d.stage = .gate l false []) (he : e.stage = .finalize)
    (hsettled : unblockedIds s.jobs.board = []) (hleased : NoneLeased s.jobs.board)
    (hexhausted : E.Exhausted s) (h : E.advance s d clock = some (s', d')) :
    ∃ u' e', E.Follows u e u' e' ∧ E.Matches s' u' d' e' := by
  rcases hd with hd | ⟨l, hd⟩
  · cases hempty : E.isEmptyExecution s d with
    | true =>
      have hfailed := finalStatus_of_empty hempty
      obtain ⟨repo, hmove, hstatus⟩ := @advance_fail_calm E u e 0 he
        (hl.isEmptyExecution_eq.trans hempty) hl.calm
      refine ⟨_, _, Follows.refl.step hmove, .past ?_⟩
      rcases @advance_fail_live E s d clock hd hempty hl.live with ⟨repo', hend, hstatus'⟩ | hend
      · rw [hend] at h
        cases h
        exact ⟨rfl, hl.findings, hl.dispatched, hsettled, hleased, hexhausted,
          hfailed.symm ▸ hstatus, .finished rfl, .inr ⟨rfl, hfailed.symm ▸ hstatus'⟩⟩
      · rw [hend] at h
        cases h
        exact ⟨rfl, hl.findings, hl.dispatched, hsettled, hleased, hexhausted,
          hfailed.symm ▸ hstatus, .finished rfl, .inl hl.live⟩
    | false =>
      have hcompleted := hl.finalStatus_of_found hempty
      have hmove := @advance_finalize_found E u e 0 he (hl.isEmptyExecution_eq.trans hempty)
      obtain ⟨repo, hmove', hstatus⟩ := @advance_complete_calm E
        { u with findings := E.persist (E.found e) u.findings } { e with stage := .complete } 0 rfl
        hl.calm
      -- The run that is followed completes at once, the other in its next move.
      refine ⟨_, _, (Follows.refl.step hmove).step hmove', .past ?_⟩
      rw [advance_finalize_found hd hempty] at h
      cases h
      refine ⟨rfl, ?_, hl.dispatched, hsettled, hleased, hexhausted, hcompleted.symm ▸ hstatus,
        .completing rfl hcompleted, .inl hl.live⟩
      show E.persist (E.found d) s.findings = E.persist (E.found e) u.findings
      rw [hl.found_eq, hl.findings]
  · -- The last round of a resumed drain is empty.
    rw [advance_gate_nil hd, resolveDependencies_eq_self hsettled] at h
    cases h
    refine ⟨u, e, Follows.refl, .level ?_ (.ending (.inl rfl) he hsettled hleased ?_)⟩
    · exact ⟨hl.board, hl.findings, hl.dispatched, hl.observed, hl.recorded, hl.live, hl.calm⟩
    · exact hexhausted.imp_left Nat.le_succ_of_le

theorem found_eq_nil (h : ∀ item ∈ d.observations.items, item.2 = []) : E.found d = [] := by
  have hnil : d.observations.values.flatten = [] := by
    rw [List.flatten_eq_nil_iff]
    intro stored hstored
    obtain ⟨item, hitem, rfl⟩ := List.mem_map.mp hstored
    exact h item hitem
  rw [found, hnil]
  rfl

/-- A drain that finds nothing to do changes neither jobs nor findings. -/
theorem Over.idle (ho : E.Over s u d e) (hlive : IsLive E.assessmentId s.repo)
    (hkind : d.kind = .resume) {stage : Stage} {now : Time} {rounds : ℕ} (hrounds : s.rounds ≤ rounds)
    (hd : stage = .queued ∨ stage = .dispatch ∨ (∃ l, stage = .scan l) ∨
      (∃ l, stage = .gate l false []) ∨ stage = .finalize)
    (hnothing : ∀ item ∈ d.observations.items, item.2 = []) :
    E.Over { s with rounds } u { d with stage, now } e :=
  ⟨ho.ended, ho.findings, ho.dispatched, ho.settled, ho.none_leased,
    ho.exhausted.imp_left hrounds.trans', ho.outcome, .idle hkind hd hnothing, .inl hlive⟩

theorem Over.finish (ho : E.Over s u d e) {repo : Repositories}
    (hstatus : IsLive E.assessmentId repo ∨
      HasStatus E.assessmentId repo (finalStatus s.jobs.board)) :
    E.Over { s with repo } u d.ended e :=
  ⟨ho.ended, ho.findings, ho.dispatched, ho.settled, ho.none_leased, ho.exhausted, ho.outcome,
    .finished rfl, hstatus.imp_right fun hfinal => ⟨rfl, hfinal⟩⟩

/-- The run that is followed has ended: the drains that come after it have nothing to do. -/
theorem matches_over (ho : E.Over s u d e)
    (hcond : ∀ l, d.stage = .scan l → d.kind = .resume → s.rounds < maxRounds ∨
      Orchestrator.roundTargets E.plan s.jobs d.now = [])
    (h : E.advance s d clock = some (s', d')) : E.Over s' u d' e := by
  have hlive : IsLive E.assessmentId s.repo := by
    rcases ho.status with hlive | ⟨hfinished, -⟩
    · exact hlive
    · rw [advance_finished hfinished] at h
      cases h
  cases ho.stage with
  | finished hd =>
    rw [advance_finished hd] at h
    cases h
  | completing hd hstatus =>
    rcases @advance_complete_live E s d clock hd hlive with ⟨repo, hend, hcompleted⟩ | hend
    · rw [hend] at h
      cases h
      exact ho.finish (.inr (hstatus.symm ▸ hcompleted))
    · rw [hend] at h
      cases h
      exact ho.finish (.inl hlive)
  | idle hkind hd hnothing =>
    rcases hd with hd | hd | ⟨l, hd⟩ | ⟨l, hd⟩ | hd
    · rw [advance_resumed hd hkind] at h
      cases h
      exact ho.idle hlive hkind le_rfl (.inr (.inl rfl)) hnothing
    · rw [advance_dispatch hd, dispatch_eq_self ho.dispatched] at h
      cases h
      exact ho.idle hlive hkind le_rfl (.inr (.inr (.inl ⟨_, rfl⟩))) hnothing
    · cases l with
      | zero =>
        rw [advance_scan_zero hd] at h
        cases h
        exact ho.idle hlive hkind le_rfl (.inr (.inr (.inr (.inr rfl)))) hnothing
      | succ l =>
        -- Either the rounds are used up, or no job is ready.
        have hnil : Orchestrator.roundTargets E.plan s.jobs d.now = [] := by
          rcases ho.exhausted with hrounds | hnone
          · exact (hcond _ hd hkind).resolve_left hrounds.not_gt
          · exact roundTargets_eq_nil ho.none_leased hnone
        rw [advance_scan_succ hd, hnil] at h
        cases h
        exact ho.idle hlive hkind le_rfl (.inr (.inr (.inr (.inl ⟨l, rfl⟩)))) hnothing
    · rw [advance_gate_nil hd, resolveDependencies_eq_self ho.settled] at h
      cases h
      exact ho.idle hlive hkind (Nat.le_succ _) (.inr (.inr (.inr (.inr rfl)))) hnothing
    · cases hempty : E.isEmptyExecution s d with
      | true =>
        have hfailed := finalStatus_of_empty hempty
        rcases @advance_fail_live E s d clock hd hempty hlive with ⟨repo, hend, hstatus⟩ | hend
        · rw [hend] at h
          cases h
          exact ho.finish (.inr (hfailed.symm ▸ hstatus))
        · rw [hend] at h
          cases h
          exact ho.finish (.inl hlive)
      | false =>
        -- Nothing is added to the findings.
        have hfound : E.found d = [] := found_eq_nil hnothing
        have hcompleted : finalStatus s.jobs.board = .completed := by
          rw [isEmptyExecution, hfound, ← any_succeeded_board] at hempty
          rw [finalStatus, if_pos (by simpa using hempty)]
        rw [advance_finalize_found hd hempty, hfound] at h
        cases h
        exact ⟨ho.ended, ho.findings, ho.dispatched, ho.settled, ho.none_leased, ho.exhausted,
          ho.outcome, .completing rfl hcompleted, .inl hlive⟩

/-- The plan is dispatched in both runs. -/
theorem matches_before (hb : E.Before s u d e) (hkeys : (E.plan.steps.map PlanStep.key).Nodup)
    (h : E.advance s d clock = some (s', d')) :
    ∃ u' e', E.Follows u e u' e' ∧ E.Matches s' u' d' e' := by
  obtain ⟨hkind, hkind'⟩ := hb.kinds
  rcases hb.stage with ⟨hd, he, hrepo, row, hrow, hstatus, hcontrol⟩ | ⟨hd, he, hlive, hcalm⟩
  · have hid : row.id = E.assessmentId := Table.key_of_get? hrow
    have hallowed : AssessmentStatus.running ∈ allowedTransitions row.status := by
      simp [hstatus, allowedTransitions]
    have hok : AssessmentService.markRunning s.repo E.assessmentId = .ok _ :=
      moveTo_ok_iff.mpr ⟨row, hrow, hallowed, rfl⟩
    -- Both start on the same row, which is running and calm from now on.
    have hcalm : IsCalm E.assessmentId (s.repo.addAssessment { row with status := .running }) :=
      ⟨_, get?_addAssessment _ hid, rfl, hcontrol⟩
    rw [advance_started hd hkind hok] at h
    cases h
    refine ⟨_, _, Follows.refl.step (advance_started he hkind' (hrepo ▸ hok)), .before ?_⟩
    exact ⟨hb.jobs, hb.findings, hb.fresh, hb.rounds, hb.kinds, hb.observations,
      .inr ⟨rfl, rfl, hcalm.isLive, hrepo ▸ hcalm⟩⟩
  · rw [advance_dispatch hd] at h
    cases h
    refine ⟨_, _, Follows.refl.step (advance_dispatch he), ?_⟩
    obtain ⟨hdispatched, hleased⟩ := hb.fresh.dispatched hkeys
    obtain ⟨hempty, hempty'⟩ := hb.observations
    refine .level ⟨?_, hb.findings, hdispatched, ⟨[], ?_, by simp⟩, ?_, hlive, hcalm⟩
      (.scanning rfl rfl ?_ le_rfl (fun _ => rfl) ?_ hleased)
    · show (Orchestrator.dispatch E.plan s.jobs).board = (Orchestrator.dispatch E.plan u.jobs).board
      rw [hb.jobs]
    · show e.observations.items = [] ++ d.observations.items
      rw [hempty, hempty', List.nil_append]
    · show Recorded _ e.observations.items
      rw [hempty']
      exact fun _ hitem => absurd hitem List.not_mem_nil
    · show s.rounds + maxRounds = maxRounds
      rw [hb.rounds, Nat.zero_add]
    · show unblockedIds (Orchestrator.dispatch E.plan s.jobs).board = []
      rw [JobStore.board, unblockedIds_untimed]
      exact hb.fresh.settled

/-- Every move of the last drain is followed. -/
theorem Matches.advance (hm : E.Matches s u d e) (hkeys : (E.plan.steps.map PlanStep.key).Nodup)
    (hscan : ∀ l, d.stage = .scan l → d.kind = .resume → s.rounds < maxRounds ∨
      Orchestrator.roundTargets E.plan s.jobs d.now = [])
    (hpause : ∀ l x target targets, d.stage = .gate l x (target :: targets) →
      E.pausePending s.repo = true → d.observations.values.flatten = [] ∧
        Orchestrator.roundTargets E.plan s.jobs d.now = target :: targets)
    (h : E.advance s d clock = some (s', d')) :
    ∃ u' e', E.Follows u e u' e' ∧ E.Matches s' u' d' e' := by
  cases hm with
  | before hb => exact matches_before hb hkeys h
  | past ho => exact ⟨u, e, Follows.refl, .past (matches_over ho hscan h)⟩
  | level hl hstage =>
    cases hstage with
    | scanning hd he hrounds hle hexecute hsettled hleased =>
      exact matches_scanning hl hd he hrounds hle hexecute hsettled hleased (hscan _ hd) h
    | executing hd he hround hjob hmem hstatus hkey hothers hapart =>
      exact matches_reported hl hd he hround hjob hmem hstatus hkey hothers hapart h
    | resting hd he hne htargets hrounds hleased hnothing =>
      exact matches_resting hl hd he hne htargets hrounds hleased hnothing h
    | ending hd he hsettled hleased hexhausted =>
      exact matches_ending hl hd he hsettled hleased hexhausted h
    | @asking l l' x x' ts ts' hd he hround hempty hleased =>
      cases ts with
      | nil =>
        obtain rfl : ts' = [] := List.map_eq_nil_iff.mp hround.targets.symm
        obtain ⟨rfl, hidle⟩ := hempty rfl
        exact matches_round_end hl hd he hround.rounds hround.le hround.execute hidle hleased h
      | cons target targets =>
        obtain ⟨repo, hlive, hgate | hgate⟩ := hl.live.readGate
        · -- The gate passes.
          cases ts' with
          | nil => exact absurd hround.targets (by simp)
          | cons target' targets' => exact matches_passed hl hd he hround hleased hlive hgate h
        · obtain ⟨hobserved, hleft⟩ := hpause l x target targets hd (by simp [pausePending, hgate])
          rw [advance_gate_paused hd hgate] at h
          cases h
          exact ⟨u, e, Follows.refl,
            matches_paused hl he hround hleased hobserved hleft hlive⟩

/-- A pause request is all the same to the run that is followed. -/
theorem Matches.pause (hm : E.Matches s u d e) {repo : Repositories}
    (h : AssessmentService.pause s.repo E.assessmentId = .ok repo) :
    E.Matches { s with repo } u d e := by
  have hlive : IsLive E.assessmentId repo := IsLive.of_moveTo h (.inr rfl) (by simp)
  obtain ⟨row, hrow, hallowed, -⟩ := moveTo_ok_iff.mp h
  cases hm with
  | before hb =>
    rcases hb.stage with ⟨-, -, -, row', hrow', hqueued, -⟩ | ⟨hd, he, -, hcalm⟩
    · -- An assessment that is queued cannot be paused.
      rw [hrow] at hrow'
      cases hrow'
      simp [hqueued, allowedTransitions] at hallowed
    · exact .before ⟨hb.jobs, hb.findings, hb.fresh, hb.rounds, hb.kinds, hb.observations,
        .inr ⟨hd, he, hlive, hcalm⟩⟩
  | level hl hstage =>
    refine .level ⟨hl.board, hl.findings, hl.dispatched, hl.observed, hl.recorded, hlive, hl.calm⟩ ?_
    cases hstage with
    | scanning hd he hrounds hle hexecute hsettled hleased =>
      exact .scanning hd he hrounds hle hexecute hsettled hleased
    | asking hd he hround hempty hleased =>
      exact .asking hd he ⟨hround.targets, hround.rounds, hround.le, hround.execute, hround.waiting⟩
        hempty hleased
    | executing hd he hround hjob hmem hstatus hkey hothers hapart =>
      exact .executing hd he
        ⟨hround.targets, hround.rounds, hround.le, hround.execute, hround.waiting⟩ hjob hmem hstatus
        hkey hothers hapart
    | resting hd he hne htargets hrounds hleased hnothing =>
      exact .resting hd he hne htargets hrounds hleased hnothing
    | ending hd he hsettled hleased hexhausted => exact .ending hd he hsettled hleased hexhausted
  | past ho =>
    exact .past ⟨ho.ended, ho.findings, ho.dispatched, ho.settled, ho.none_leased, ho.exhausted,
      ho.outcome, ho.stage, .inl hlive⟩

/-- A resume that comes when the drains before it have ended. -/
theorem Matches.resume (hm : E.Matches s u d e) (hd : d.stage = .finished) {repo : Repositories}
    (h : AssessmentService.resume s.repo E.assessmentId = .ok repo) :
    E.Matches { s with repo } u { kind := .resume } e := by
  have hlive : IsLive E.assessmentId repo := IsLive.of_moveTo h (.inl rfl) (by simp)
  have hempty : ∀ item ∈ (Dict.empty : Dict String (List Observation)).items, item.2 = [] := by
    simp [Dict.empty]
  cases hm with
  | before hb =>
    rcases hb.stage with ⟨hd', -⟩ | ⟨hd', -⟩ <;> simp [hd] at hd'
  | past ho =>
    exact .past ⟨ho.ended, ho.findings, ho.dispatched, ho.settled, ho.none_leased, ho.exhausted,
      ho.outcome, .idle rfl (.inl rfl) hempty, .inl hlive⟩
  | level hl hstage =>
    cases hstage with
    | scanning hd' => simp [hd] at hd'
    | asking hd' => simp [hd] at hd'
    | executing hd' => simp [hd] at hd'
    | ending hd' => rcases hd' with hd' | ⟨l, hd'⟩ <;> simp [hd] at hd'
    | resting _ he hne htargets hrounds hleased hnothing =>
      obtain ⟨lost, hitems, hlost⟩ := hl.observed
      -- What the ended drain had observed is lost, and was nothing.
      have hall : ∀ item ∈ e.observations.items, item.2 = [] := by
        intro item hitem
        rw [hitems, List.mem_append] at hitem
        exact hitem.elim (hlost item) (hnothing item)
      refine .level ⟨hl.board, hl.findings, hl.dispatched, ⟨_, (List.append_nil _).symm, hall⟩,
        hl.recorded, hlive, hl.calm⟩ ?_
      -- The resumed drain has its own step runner, which has observed nothing.
      exact .resting (.inr ⟨rfl, .inl rfl⟩) he hne htargets hrounds hleased hempty

end Steps

/-! ## Whole runs -/

/-- All drains but the last have ended, and the last is followed from the start. -/
def Tracked (first : RunState) (s : PausableRun) : Prop :=
  ∃ old d u e, s.threads = old ++ [d] ∧ (∀ ended ∈ old, ended.stage = .finished) ∧
    E.Follows first { kind := .execute } u e ∧ E.Matches s.shared u d e

section Runs

variable {E} {first : RunState} {s t : PausableRun}

/-- A move of a drain writes what it shares, and puts its thread back in its place. -/
theorem step_advance {index : ℕ} {clock : Time} (hstep : E.step s (.advance index clock) = some t) :
    ∃ d d' shared, s.threads[index]? = some d ∧ E.advance s.shared d clock = some (shared, d') ∧
      t = ⟨shared, s.threads.set index d'⟩ := by
  rw [Engagement.step] at hstep
  split at hstep
  next => cases hstep
  next d hget =>
    obtain ⟨⟨shared, d'⟩, hadvance, rfl⟩ := Option.map_eq_some_iff.mp hstep
    exact ⟨d, d', shared, hget, hadvance, rfl⟩

theorem Tracked.step (h : E.Tracked first s) (hkeys : (E.plan.steps.map PlanStep.key).Nodup)
    {l : RunCall} (hcond : E.Undisturbed s l) (hstep : E.step s l = some t) :
    E.Tracked first t := by
  obtain ⟨old, d, u, e, hthreads, hold, hfollows, hm⟩ := h
  cases l with
  | pause =>
    rw [Engagement.step] at hstep
    split at hstep
    next repo hpause =>
      cases hstep
      exact ⟨old, d, u, e, hthreads, hold, hfollows, hm.pause hpause⟩
    next => cases hstep
  | resume =>
    have hd : d.stage = .finished := hcond d (by simp [hthreads])
    rw [Engagement.step] at hstep
    split at hstep
    next repo hresume =>
      cases hstep
      refine ⟨s.threads, { kind := .resume }, u, e, rfl, hcond, hfollows, hm.resume hd hresume⟩
    next => cases hstep
  | advance index clock =>
    obtain ⟨d₀, d', shared, hget, hadvance, rfl⟩ := step_advance hstep
    rw [hthreads] at hget
    -- Only the last drain can move.
    have hindex : index = old.length ∧ d₀ = d := by
      rcases getElem?_append_cases hget with hmem | ⟨hmem, hle⟩
      · rw [advance_finished (hold d₀ (List.mem_of_getElem? hmem))] at hadvance
        cases hadvance
      · have hlt : index < (old ++ [d]).length := (List.getElem?_eq_some_iff.mp hget).1
        rw [List.length_append, List.length_singleton] at hlt
        exact ⟨by omega, List.mem_singleton.mp hmem⟩
    obtain ⟨rfl, rfl⟩ := hindex
    have hcond' := hcond d₀ (by rw [hthreads, hget]; rfl)
    obtain ⟨u', e', hmove, hm'⟩ := hm.advance hkeys
      (fun l hscan => by
        simp only [LosesNothing, hscan] at hcond'
        exact hcond')
      (fun l x target targets hgate => by
        simp only [LosesNothing, hgate] at hcond'
        exact hcond')
      hadvance
    -- The thread is put back in its place.
    refine ⟨old, d', u', e', ?_, hold, hfollows.trans hmove, hm'⟩
    show s.threads.set old.length d' = old ++ [d']
    rw [hthreads, List.set_append_right _ _ le_rfl, Nat.sub_self, List.set_cons_zero]

/-- The one drain of a run that is not interrupted. It ends with the assessment. -/
def AloneAt (E : Engagement) (s : RunState) (d : RunThread) : Prop :=
  (d.stage = .queued ∧ ∃ row, s.repo.assessments.get? E.assessmentId = some row ∧
      row.status = .queued ∧ row.control = .none) ∨
    (d.stage ≠ .queued ∧ d.stage ≠ .finished ∧ IsCalm E.assessmentId s.repo) ∨
    (d.stage = .finished ∧ ∃ status, isFinal status ∧ HasStatus E.assessmentId s.repo status)

theorem raised_calm {s : RunState} {d : RunThread} (hkind : d.kind = .execute)
    (hcalm : IsCalm E.assessmentId s.repo) :
    ∃ repo, E.raised s d = ({ s with repo }, d.ended) ∧
      HasStatus E.assessmentId repo .failed := by
  obtain ⟨repo, hok, hstatus⟩ := hcalm.moveTo_final (.inr rfl)
  refine ⟨repo, ?_, hstatus⟩
  simp only [raised, hkind, failed, AssessmentService.fail, hok]

theorem AloneAt.advance {s s' : RunState} {d d' : RunThread} {clock : Time} (h : AloneAt E s d)
    (hkind : d.kind = .execute) (hadvance : E.advance s d clock = some (s', d')) :
    d'.kind = .execute ∧ AloneAt E s' d' := by
  rcases h with ⟨hd, row, hrow, hstatus, hcontrol⟩ | ⟨hqueued, hfinished, hcalm⟩ | ⟨hd, -⟩
  · have hid : row.id = E.assessmentId := Table.key_of_get? hrow
    have hok : AssessmentService.markRunning s.repo E.assessmentId = .ok _ :=
      moveTo_ok_iff.mpr ⟨row, hrow, by simp [hstatus, allowedTransitions], rfl⟩
    rw [advance_started hd hkind hok] at hadvance
    cases hadvance
    exact ⟨hkind, .inr (.inl ⟨Stage.noConfusion, Stage.noConfusion,
      ⟨_, get?_addAssessment _ hid, rfl, hcontrol⟩⟩)⟩
  -- Whatever raises an exception, the assessment is failed.
  · obtain ⟨repo, hraised, hfailed⟩ := raised_calm (d := d) hkind hcalm
    have hend : AloneAt E { s with repo } d.ended :=
      .inr (.inr ⟨rfl, .failed, .inr rfl, hfailed⟩)
    cases hd : d.stage with
    | queued => exact absurd hd hqueued
    | finished => exact absurd hd hfinished
    | dispatch =>
      rw [advance_dispatch hd] at hadvance
      cases hadvance
      exact ⟨hkind, .inr (.inl ⟨Stage.noConfusion, Stage.noConfusion, hcalm⟩)⟩
    | scan rounds =>
      cases rounds with
      | zero =>
        rw [advance_scan_zero hd] at hadvance
        cases hadvance
        exact ⟨hkind, .inr (.inl ⟨Stage.noConfusion, Stage.noConfusion, hcalm⟩)⟩
      | succ rounds =>
        rw [advance_scan_succ hd] at hadvance
        cases hadvance
        exact ⟨hkind, .inr (.inl ⟨Stage.noConfusion, Stage.noConfusion, hcalm⟩)⟩
    | gate rounds executed targets =>
      cases targets with
      | nil =>
        rw [advance_gate_nil hd] at hadvance
        cases hadvance
        refine ⟨hkind, .inr (.inl ⟨?_, ?_, hcalm⟩)⟩
        · cases executed <;> exact Stage.noConfusion
        · cases executed <;> exact Stage.noConfusion
      | cons target targets =>
        simp only [Engagement.advance, hd, hcalm.readGate] at hadvance
        split at hadvance
        · cases hadvance
          exact ⟨hkind, .inr (.inl ⟨Stage.noConfusion, Stage.noConfusion, hcalm⟩)⟩
        · rw [hraised] at hadvance
          cases hadvance
          exact ⟨hkind, hend⟩
    | running rounds leased step targets =>
      simp only [Engagement.advance, hd] at hadvance
      split at hadvance
      · cases hadvance
        exact ⟨hkind, .inr (.inl ⟨Stage.noConfusion, Stage.noConfusion, hcalm⟩)⟩
      · rw [hraised] at hadvance
        cases hadvance
        exact ⟨hkind, hend⟩
    | finalize =>
      cases hempty : E.isEmptyExecution s d with
      | true =>
        obtain ⟨repo, hmove, hstatus⟩ := @advance_fail_calm E s d clock hd hempty hcalm
        rw [hmove] at hadvance
        cases hadvance
        exact ⟨hkind, .inr (.inr ⟨rfl, .failed, .inr rfl, hstatus⟩)⟩
      | false =>
        rw [advance_finalize_found hd hempty] at hadvance
        cases hadvance
        exact ⟨hkind, .inr (.inl ⟨Stage.noConfusion, Stage.noConfusion, hcalm⟩)⟩
    | complete =>
      obtain ⟨repo, hmove, hstatus⟩ := @advance_complete_calm E s d clock hd hcalm
      rw [hmove] at hadvance
      cases hadvance
      exact ⟨hkind, .inr (.inr ⟨rfl, .completed, .inl rfl, hstatus⟩)⟩
  · rw [advance_finished hd] at hadvance
    cases hadvance

/-- A run with one drain. -/
def Alone (E : Engagement) (s : PausableRun) : Prop :=
  ∃ d, s.threads = [d] ∧ d.kind = .execute ∧ AloneAt E s.shared d

theorem Alone.step (h : Alone E s) {l : RunCall} (hcond : Uninterrupted s l)
    (hstep : E.step s l = some t) : Alone E t := by
  obtain ⟨d, hthreads, hkind, hd⟩ := h
  cases l with
  | pause => exact hcond.elim
  | resume => exact hcond.elim
  | advance index clock =>
    obtain ⟨d₀, d', shared, hget, hadvance, rfl⟩ := Engagement.step_advance hstep
    rw [hthreads] at hget
    obtain ⟨rfl, rfl⟩ : index = 0 ∧ d = d₀ := by
      cases index with
      | zero => exact ⟨rfl, Option.some.inj hget⟩
      | succ index => simp at hget
    obtain ⟨hkind', hd'⟩ := hd.advance hkind hadvance
    refine ⟨d', ?_, hkind', hd'⟩
    show s.threads.set 0 d' = [d']
    rw [hthreads, List.set_cons_zero]

/-- An assessment that has ended has the findings of the run that is followed, which has ended too,
with the same status. -/
theorem Matches.ended {s u : RunState} {d e : RunThread} (hm : E.Matches s u d e)
    {status : AssessmentStatus} (hfinal : isFinal status)
    (hstatus : HasStatus E.assessmentId s.repo status) :
    e.stage = .finished ∧ s.findings = u.findings ∧ HasStatus E.assessmentId u.repo status := by
  cases hm with
  | before hb =>
    rcases hb.stage with ⟨-, -, -, row, hrow, hqueued, -⟩ | ⟨-, -, hlive, -⟩
    -- An assessment that is queued has not ended.
    · obtain rfl := hasStatus_unique ⟨row, hrow, hqueued⟩ hstatus
      rcases hfinal with hfinal | hfinal <;> cases hfinal
    · exact absurd hstatus (hlive.not_final hfinal)
  | level hl => exact absurd hstatus (hl.live.not_final hfinal)
  | past ho =>
    rcases ho.status with hlive | ⟨-, hended⟩
    · exact absurd hstatus (hlive.not_final hfinal)
    · rw [← hasStatus_unique hended hstatus]
      exact ⟨ho.ended, ho.findings, ho.outcome⟩

end Runs

/-- Two steps that depend on nothing; the steps of `silent` observe nothing, the others something
under their own name. -/
def twoSteps (silent : List String) : Engagement where
  assessmentId := "asm-a"
  plan :=
    { id := "plan-a"
      assessmentId := "asm-a"
      version := 1
      steps := [⟨"ports", "naabu", .passive, .empty, []⟩, ⟨"web", "nuclei", .passive, .empty, []⟩]
      digest := "plan-digest" }
  outputs step _ :=
    .ok (if step.key ∈ silent then []
      else
        [{ externalId := "obs-" ++ step.key
           assetIdentity := step.key
           title := "exposed"
           severity := .high }])
  resultDigest _ := "result-digest"
  fingerprint asset _ _ := "sha256:" ++ asset
  oraclePass _ table := table
  backend := .sqlAlchemy
  leaseTtl := 300

end Engagement

end SecOpent
