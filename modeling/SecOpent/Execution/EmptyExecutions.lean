import SecOpent.Execution.FruitlessRuns
import SecOpent.Transition.Conditions

/-!
# Empty executions

`_finalize_execution` fails an execution in which no step has succeeded and nothing was found. It counts
the succeeded jobs of the whole store, which the assessments share and which outlives them, so that a
job of another assessment that was left there makes an empty execution a completed one.

## Main definitions

* `Executor.Succeeded`: a step of the plan has succeeded, in this call or before
* `Executor.CompletesOnEvidence`: no empty execution of the plan is completed
* `Executor.CountsOwn`: the succeeded jobs that the dispatch leaves are those of the plan
* `Executor.Accounted`: the invariant of a call

## Main results

* `Accounted.moved`: the invariant is kept
* `empty_execution_iff`: when no empty execution is completed
* `leftover_completes_empty_execution`: a job that another assessment left
-/

namespace SecOpent

open Python Transition

/-- The stages before the status is written. -/
def ExecutionStage.beforeEnd : ExecutionStage → Bool
  | .recording | .excepting | .returned => false
  | _ => true

/-- Something was found, or some job of the store has succeeded. -/
def ExecutionCall.Evidence (c : ExecutionCall) : Prop :=
  c.findings ≠ [] ∨ ∃ job ∈ c.run.store.all, job.status = .succeeded

namespace Executor

variable (E : Executor)

/-- A step of the plan has succeeded: its job says so, or the runner gave a result in this call. -/
def Succeeded (c : ExecutionCall) : Prop :=
  (∃ job ∈ c.run.store.all, job.status = .succeeded ∧ job.Of E.plan) ∨
    ∃ event ∈ c.run.log, event.succeeds = true

instance (c : ExecutionCall) : Decidable (E.Succeeded c) := inferInstanceAs (Decidable (_ ∨ _))

/-- Whatever the steps do, the assessment is completed only if one of them has succeeded or something
was found. -/
def CompletesOnEvidence (kind : DrainKind) (repo : Repositories) (store : JobStore) : Prop :=
  ∀ moves t, runLabels E.step (E.call kind repo store) moves = some t → t.stage = .returned →
    E.statusOf t = some .completed → E.Succeeded t ∨ t.findings ≠ []

/-- The succeeded jobs that the dispatch leaves are jobs of the plan, or one of them is. -/
def CountsOwn (store : JobStore) : Prop :=
  (∃ job ∈ (Orchestrator.dispatch E.plan store).all, job.status = .succeeded ∧ job.Of E.plan) ∨
    ∀ job ∈ (Orchestrator.dispatch E.plan store).all, job.status = .succeeded → job.Of E.plan

instance (store : JobStore) : Decidable (E.CountsOwn store) := inferInstanceAs (Decidable (_ ∨ _))

/-- What a call knows when it completes the assessment. -/
structure Accounted (dispatched : JobStore) (c : ExecutionCall) : Prop where
  run : c.stage.beforeEnd = true → KeepsSuccesses E.plan dispatched c.run
  settled : c.stage = .finalizing ∨ c.stage = .completing → Drained dispatched c.run
  evidence : c.stage = .completing → c.Evidence
  uncompleted : c.stage.beforeEnd = true → E.statusOf c ≠ some .completed
  gate : ∀ row, c.stage = .draining (.signal row) → row.id = E.assessmentId ∧
    row.status ≠ .completed
  completed : E.statusOf c = some .completed → Drained dispatched c.run ∧ c.Evidence

variable {E} {c c' : ExecutionCall} {move : ExecutionMove} {dispatched : JobStore}

/-- Before the end the assessment is not completed. -/
theorem Accounted.of_open (hrun : KeepsSuccesses E.plan dispatched c'.run)
    (hstatus : E.statusOf c' ≠ some .completed)
    (hsettled : c'.stage = .finalizing ∨ c'.stage = .completing → Drained dispatched c'.run)
    (hevidence : c'.stage = .completing → c'.Evidence)
    (hgate : ∀ row, c'.stage = .draining (.signal row) → row.id = E.assessmentId ∧
      row.status ≠ .completed) : E.Accounted dispatched c' where
  run _ := hrun
  settled := hsettled
  evidence := hevidence
  uncompleted _ := hstatus
  gate := hgate
  completed hcompleted := absurd hcompleted hstatus

/-- The call goes on towards its drain, or in it. -/
theorem Accounted.of_running (hrun : KeepsSuccesses E.plan dispatched c'.run)
    (hstatus : E.statusOf c' ≠ some .completed) (hfinalizing : c'.stage ≠ .finalizing)
    (hcompleting : c'.stage ≠ .completing)
    (hgate : ∀ row, c'.stage = .draining (.signal row) → row.id = E.assessmentId ∧
      row.status ≠ .completed) : E.Accounted dispatched c' :=
  .of_open hrun hstatus (by simp [hfinalizing, hcompleting]) (by simp [hcompleting]) hgate

/-- At the end, what was known is still known. -/
theorem Accounted.of_end (hstage : c'.stage.beforeEnd = false)
    (hcompleted : E.statusOf c' = some .completed → Drained dispatched c'.run ∧ c'.Evidence) :
    E.Accounted dispatched c' where
  run h := by
    rw [hstage] at h
    cases h
  settled h := by rcases h with h | h <;> rw [h] at hstage <;> cases hstage
  evidence h := by
    rw [h] at hstage
    cases hstage
  uncompleted h := by
    rw [hstage] at h
    cases h
  gate row h := by
    rw [h] at hstage
    cases hstage
  completed := hcompleted

theorem ne_completed_of_moved {repo : Repositories} {target : AssessmentStatus}
    {control : Option ControlState}
    (h : AssessmentService.moveTo c.repo E.assessmentId target control = .ok repo)
    (hne : target ≠ .completed) (hrepo : c'.repo = repo) : E.statusOf c' ≠ some .completed := by
  obtain ⟨row, -, -, hget⟩ := exists_moved_row h
  rw [statusOf, hrepo, hget, Option.map_some]
  exact fun heq => hne (Option.some.inj heq)

theorem Accounted.moved (h : E.Accounted dispatched c) (hmoved : E.Moved c move c') :
    E.Accounted dispatched c' := by
  have hopen : ∀ {stage : ExecutionStage}, c.stage = stage → stage.beforeEnd = true →
      KeepsSuccesses E.plan dispatched c.run ∧ E.statusOf c ≠ some .completed := by
    rintro stage rfl hstage
    exact ⟨h.run hstage, h.uncompleted hstage⟩
  cases hmoved with
  | began repo hstage _ hrunning =>
    exact .of_running (hopen hstage rfl).1 (ne_completed_of_moved hrunning (by simp) rfl) (by simp)
      (by simp) (by simp)
  | resumed hstage =>
    exact .of_running (hopen hstage rfl).1 (hopen hstage rfl).2 (by simp) (by simp) (by simp)
  | started hstage =>
    exact .of_running (hopen hstage rfl).1 (hopen hstage rfl).2 (by simp) (by simp) (by simp)
  | proceeded nftFailed hstage =>
    exact .of_running (hopen hstage rfl).1 (hopen hstage rfl).2 (by simp) (by simp) (by simp)
  | vanished hstage =>
    exact .of_running (hopen hstage rfl).1 (hopen hstage rfl).2 (by simp) (by simp) (by simp)
  | denied check repo hcheck hfail =>
    exact .of_end rfl fun hc => absurd hc (ne_completed_of_moved hfail (by simp) rfl)
  | emptied observations repo hstage hfail =>
    exact .of_end rfl fun hc => absurd hc (ne_completed_of_moved hfail (by simp) rfl)
  | ran label gate run hstage hpermits hgoesOn hrun =>
    refine .of_running ((hopen hstage rfl).1.step hrun) (hopen hstage rfl).2 (by simp) (by simp) ?_
    intro row hrow
    have hgate : gate = .signal row := afterRun_signal (ExecutionStage.draining.inj hrow)
    exact h.gate row (hstage.trans (congrArg _ hgate))
  | crashed index gate hstage =>
    exact .of_running ((hopen hstage rfl).1.crash index) (hopen hstage rfl).2 (by simp [hstage])
      (by simp [hstage]) h.gate
  | asked row hstage hrow =>
    refine .of_running (hopen hstage rfl).1 (hopen hstage rfl).2 (by simp) (by simp) ?_
    intro read hread
    have hstatus := (hopen hstage rfl).2
    rw [statusOf, hrow, Option.map_some] at hstatus
    dsimp only at hread
    split at hread
    · cases hread
    · cases hread
      exact ⟨Table.key_of_get? hrow, fun heq => hstatus (congrArg some heq)⟩
  | cleared row hstage =>
    obtain ⟨hid, hne⟩ := h.gate row hstage
    refine .of_running (hopen hstage rfl).1 ?_ (by simp) (by simp) ?_
    · rw [statusOf, Repositories.addAssessment, Table.get?_put, if_pos hid.symm, Option.map_some]
      exact fun heq => hne (Option.some.inj heq)
    · intro read hread
      dsimp only at hread
      cases hc : row.control <;> rw [hc] at hread <;> cases hread
  | abandoned gate terminationFails hstage =>
    exact .of_end rfl fun hc => absurd hc (hopen hstage rfl).2
  | paused gate terminationFails hstage =>
    exact .of_end rfl fun hc => absurd hc (hopen hstage rfl).2
  | drained gate terminationFails events hstage hphase =>
    have hdrained := (hopen hstage rfl).1.drained_of_returned hphase
    exact .of_open (.inr hdrained) (hopen hstage rfl).2 (fun _ => hdrained) (by simp) (by simp)
  | persisted observations hstage hfound =>
    have hdrained := h.settled (.inl hstage)
    refine .of_open (.inr hdrained) (hopen hstage rfl).2 (fun _ => hdrained) (fun _ => ?_) (by simp)
    exact hfound.imp_right anySucceeded_iff.mp
  | completed repo hstage hcomplete =>
    exact .of_end rfl fun _ => ⟨h.settled (.inr hstage), h.evidence hstage⟩
  | recorded hstage => exact .of_end rfl h.completed
  | threw _ hthrows _ _ =>
    refine .of_end ?_ fun hc => ?_
    · unfold ExecutionCall.thrown
      split <;> rfl
    · rw [statusOf, ExecutionCall.thrown_repo] at hc
      simpa [ExecutionCall.Evidence] using h.completed hc
  | handled hstage =>
    refine .of_end rfl fun hc => ?_
    -- `service.fail` has not made it completed.
    rcases Drain.failed_cases c.repo E.assessmentId with heq | hfail
    · rw [statusOf, ExecutionCall.returning, heq] at hc
      exact h.completed hc
    · exact absurd hc (ne_completed_of_moved hfail (by simp) rfl)
  | pauseRequested repo hstage hpause =>
    have hne : E.statusOf { c with repo } ≠ some .completed :=
      ne_completed_of_moved hpause (by simp) rfl
    exact ⟨h.run, h.settled, h.evidence, fun _ => hne, h.gate, fun hc => absurd hc hne⟩
  | cancelRequested repo hstage hcancel =>
    have hne : E.statusOf { c with repo } ≠ some .completed :=
      ne_completed_of_moved hcancel (by simp) rfl
    exact ⟨h.run, h.settled, h.evidence, fun _ => hne, h.gate, fun hc => absurd hc hne⟩

theorem accounted_call {kind : DrainKind} {repo : Repositories} (hrepo : E.Awaits kind repo)
    (store : JobStore) :
    E.Accounted (Orchestrator.dispatch E.plan store) (E.call kind repo store) := by
  obtain ⟨row, hrow, hawaits⟩ := hrepo
  refine .of_running (keepsSuccesses_start _ _ _ _ _) ?_ (by simp [call]) (by simp [call])
    (by simp [call])
  rw [statusOf, call, hrow, Option.map_some]
  cases kind with
  | execute => simp [hawaits.1]
  | resume => simp [hawaits.1]

theorem accounted_of_reaches {kind : DrainKind} {repo : Repositories} {store : JobStore}
    {cond : ExecutionCall → ExecutionMove → Prop} {t : ExecutionCall} (hrepo : E.Awaits kind repo)
    (h : Reaches E.step cond (E.call kind repo store) t) :
    E.Accounted (Orchestrator.dispatch E.plan store) t :=
  h.invariant (accounted_call hrepo store) fun _ _ _ hinv _ hstep => hinv.moved (moved_of_step hstep)

/-- Counting the whole store is enough when it holds no job of another plan that has succeeded. -/
theorem CountsOwn.completesOnEvidence {kind : DrainKind} {repo : Repositories} {store : JobStore}
    (h : E.CountsOwn store) (hrepo : E.Awaits kind repo) : E.CompletesOnEvidence kind repo store := by
  intro moves t hrun hreturned hcompleted
  have hreaches : Reaches E.step (fun _ _ => True) (E.call kind repo store) t :=
    .of_runLabels hrun (runMeets_of_forall fun _ _ _ => trivial)
  obtain ⟨hdrained, hevidence⟩ := (accounted_of_reaches hrepo hreaches).completed hcompleted
  rcases hevidence with hfindings | ⟨job, hjob, hsucceeded⟩
  · exact .inr hfindings
  left
  rcases hdrained.made job hjob hsucceeded with hmem | hlogged
  · rcases h with ⟨own, hown, hs, hof⟩ | hall
    · exact .inl ⟨own, JobStore.mem_all.mpr (hdrained.kept own hown hs), hs, hof⟩
    · exact .inl ⟨job, hjob, hsucceeded, hall job hmem hsucceeded⟩
  · exact .inr hlogged

/-- **When no empty execution is completed**: if, with the plan dispatched, no job of the store has
succeeded that is not one of the plan, or one of the plan has. -/
theorem empty_execution_iff {kind : DrainKind} {repo : Repositories} {store : JobStore}
    (hrepo : E.Awaits kind repo) : E.CompletesOnEvidence kind repo store ↔ E.CountsOwn store := by
  refine ⟨fun h => ?_, fun h => h.completesOnEvidence hrepo⟩
  by_contra hcounts
  obtain ⟨hnone, hforeign⟩ := not_or.mp hcounts
  push Not at hforeign
  obtain ⟨job, hjob, hsucceeded, -⟩ := hforeign
  -- A run in which no step succeeds is completed by the job that was left.
  obtain ⟨c, hreaches, hstanding⟩ := exists_fruitless_drain hrepo store
  have hkeeps := (accounted_of_reaches hrepo hreaches).run (by rw [hstanding.pool.stage]; rfl)
  have hkept := (hkeeps.drained_of_returned hstanding.pool.phase).kept job hjob hsucceeded
  obtain ⟨t, hend, hreturned, hcompleted, hfindings, -⟩ :=
    hstanding.completes ⟨job, JobStore.mem_all.mpr hkept, hsucceeded⟩
  have hall := hreaches.trans hend
  obtain ⟨moves, hmoves⟩ := hall.exists_runLabels
  rcases h moves t hmoves hreturned hcompleted with hown | hfound
  · have hlog : ∀ event ∈ t.run.log, event.succeeds = false :=
      hall.invariant (by simp [call, PlanRun.start]) fun _ _ _ hinv hcond hstep =>
        log_of_fruitless hcond hstep hinv
    rcases hown with ⟨own, hmem, hs, hof⟩ | ⟨event, hevent, hsucceeds⟩
    · obtain ⟨hdrained, -⟩ := (accounted_of_reaches hrepo hall).completed hcompleted
      rcases hdrained.made own hmem hs with hmem | ⟨event, hevent, hsucceeds⟩
      · exact hnone ⟨own, hmem, hs, hof⟩
      · rw [hlog event hevent] at hsucceeds
        cases hsucceeds
    · rw [hlog event hevent] at hsucceeds
      cases hsucceeds
  · exact hfound hfindings

end Executor

/-- A store in which another assessment has left a job that succeeded. -/
def leftoverStore : JobStore :=
  .put .empty
    { id := "job:ports-of-another"
      planStepKey := "ports-of-another"
      idempotencyKey := "another-digest:ports-of-another"
      dependencies := []
      status := .succeeded }

/-- The only step is refused, and nothing is observed. -/
def refusedRun (start : List ExecutionMove) : List ExecutionMove :=
  start ++ scanRun (.failure .outOfScope) [] ++ [.finalize [], .complete, .record]

theorem completed_without_evidence {kind : DrainKind} {status : AssessmentStatus}
    (start : List ExecutionMove)
    (h : (runLabels scanExecutor.step (scanExecutor.call kind (scheduled status) leftoverStore)
      (refusedRun start)).map (fun t => (t.stage, scanExecutor.statusOf t,
        decide (scanExecutor.Succeeded t), t.findings.isEmpty)) =
      some (.returned, some .completed, false, true)) :
    ¬scanExecutor.CompletesOnEvidence kind (scheduled status) leftoverStore := by
  intro hevidence
  obtain ⟨t, hrun, hseen⟩ := Option.map_eq_some_iff.mp h
  simp only [Prod.mk.injEq, decide_eq_false_iff_not, List.isEmpty_iff] at hseen
  obtain ⟨hstage, hstatus, hsucceeded, hfindings⟩ := hseen
  rcases hevidence _ t hrun hstage hstatus with h | h
  · exact hsucceeded h
  · exact h hfindings

/-- **A job that another assessment left** makes an empty execution a completed one, and an empty
resume as well. -/
theorem leftover_completes_empty_execution :
    ¬scanExecutor.CompletesOnEvidence .execute (scheduled .queued) leftoverStore ∧
      ¬scanExecutor.CompletesOnEvidence .resume (scheduled .running) leftoverStore := by
  constructor
  · refine completed_without_evidence [.begin, .start, .proceed false] ?_
    decide +kernel
  · refine completed_without_evidence [.begin] ?_
    decide +kernel

/-- In an empty store no empty execution is completed. -/
theorem empty_store_completes_on_evidence :
    scanExecutor.CompletesOnEvidence .execute (scheduled .queued) .empty := by
  have hawaits : scanExecutor.Awaits .execute (scheduled .queued) := ⟨_, rfl, rfl, rfl⟩
  exact (Executor.empty_execution_iff hawaits).mpr (by decide +kernel)

end SecOpent
