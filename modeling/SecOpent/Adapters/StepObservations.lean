import SecOpent.Adapters.StepRunner
import SecOpent.Jobs.PlanRuns

/-!
# Observations of a step that fails

A drain runs its steps through one `AdapterStepRunner`. The runner scans target after target and keeps
what they gave when all of them were scanned, so a target that fails takes the observations of those
before it with it: the job is run again, or it is failed, and in the end nothing is left of the attempt.

## Main definitions

* `StepAttempt`: an attempt of a step, with the scanner that answered it
* `AdapterDrain.step`: the drain of a plan through an adapter runner
* `AdapterDrain.NothingLost`: the final attempt of each step is in `all_observations()`

## Main results

* `run_of_complete`, `run_of_incomplete`: what becomes of the observations of an attempt
* `kept_step`: the runner holds the last complete attempt of each step
* `nothing_lost_iff`: when no observation of a final attempt is lost
-/

namespace SecOpent

open Python Transition

/-! ## Attempts -/

/-- `_scan_target`. -/
def scanTarget (context : ScanContext) (scan : Scanner) (adapterKey : String) (target : Str) :
    Except StepFailure (List Observation) :=
  match invocation context adapterKey target with
  | .error failure => .error failure
  | .ok inv => classify adapterKey target (scan adapterKey inv)

/-- What the targets give up to the first one that fails. -/
def returnedBy (context : ScanContext) (scan : Scanner) (adapterKey : String) :
    List Str → List Observation
  | [] => []
  | target :: targets =>
    match scanTarget context scan adapterKey target with
    | .error _ => []
    | .ok observations => observations ++ returnedBy context scan adapterKey targets

/-- An attempt of a step: the scanner answers the scans of the attempt. -/
structure StepAttempt where
  step : PlanStep
  scanner : Scanner

namespace StepAttempt

variable (context : ScanContext) (attempt : StepAttempt)

/-- The target is scanned, and gives the observations: no target before it has failed. -/
def Scans (target : Str) (observations : List Observation) : Prop :=
  ∃ before after, context.targets = before ++ target :: after ∧
    (∀ t ∈ before, ∃ given, scanTarget context attempt.scanner attempt.step.runner t = .ok given) ∧
    scanTarget context attempt.scanner attempt.step.runner target = .ok observations

/-- All observations that the targets gave. -/
def returned : List Observation :=
  returnedBy context attempt.scanner attempt.step.runner context.targets

/-- There are targets, and none of them fails. -/
def complete : Bool :=
  !context.targets.isEmpty && context.targets.all fun target =>
    (scanTarget context attempt.scanner attempt.step.runner target).isOk

end StepAttempt

/-- The last attempt that has the property. -/
def lastAttempt (p : StepAttempt → Bool) (attempts : List StepAttempt) : Option StepAttempt :=
  attempts.reverse.find? p

section Attempts

variable {context : ScanContext} {scan : Scanner} {adapterKey : String} {targets : List Str}
  {attempt : StepAttempt} {attempts : List StepAttempt} {p q : StepAttempt → Bool}

theorem lastAttempt_concat : lastAttempt p (attempts ++ [attempt]) =
    if p attempt = true then some attempt else lastAttempt p attempts := by
  rw [lastAttempt, List.reverse_append, List.reverse_singleton, List.singleton_append, List.find?_cons]
  cases hp : p attempt <;> simp [lastAttempt]

/-- The last attempt with a property is the last one with a stronger property, if it has it. -/
theorem lastAttempt_and (h : lastAttempt p attempts = some attempt) (hq : q attempt = true) :
    lastAttempt (fun a => p a && q a) attempts = some attempt := by
  obtain ⟨hp, before, after, hsplit, hbefore⟩ := List.find?_eq_some_iff_append.mp h
  refine List.find?_eq_some_iff_append.mpr ⟨by simp [hp, hq], before, after, hsplit, ?_⟩
  intro a ha
  simp [Bool.not_eq_true' _ ▸ hbefore a ha]

/-- What is given is given by a target that was scanned. -/
theorem mem_returnedBy {o : Observation} :
    o ∈ returnedBy context scan adapterKey targets ↔
      ∃ before target after observations, targets = before ++ target :: after ∧
        (∀ t ∈ before, ∃ given, scanTarget context scan adapterKey t = .ok given) ∧
        scanTarget context scan adapterKey target = .ok observations ∧ o ∈ observations := by
  induction targets with
  | nil => simp [returnedBy]
  | cons head targets ih =>
    rw [returnedBy]
    cases hscan : scanTarget context scan adapterKey head with
    | error failure =>
      -- The first target fails, so no target is scanned.
      refine iff_of_false List.not_mem_nil ?_
      rintro ⟨before, target, after, observations, hsplit, hbefore, htarget, -⟩
      cases before with
      | nil =>
        obtain ⟨rfl, -⟩ := List.cons.inj hsplit
        cases hscan.symm.trans htarget
      | cons first before =>
        obtain ⟨rfl, -⟩ := List.cons.inj hsplit
        obtain ⟨given, hgiven⟩ := hbefore _ List.mem_cons_self
        cases hscan.symm.trans hgiven
    | ok observations =>
      rw [List.mem_append, ih]
      constructor
      · rintro (ho | ⟨before, target, after, given, rfl, hbefore, htarget, ho⟩)
        · exact ⟨[], head, targets, observations, rfl, by simp, hscan, ho⟩
        · refine ⟨head :: before, target, after, given, rfl, ?_, htarget, ho⟩
          intro t ht
          rcases List.mem_cons.mp ht with rfl | ht
          · exact ⟨observations, hscan⟩
          · exact hbefore t ht
      · rintro ⟨before, target, after, given, hsplit, hbefore, htarget, ho⟩
        cases before with
        | nil =>
          obtain ⟨rfl, -⟩ := List.cons.inj hsplit
          obtain rfl := Except.ok.inj (hscan.symm.trans htarget)
          exact .inl ho
        | cons first before =>
          obtain ⟨rfl, rfl⟩ := List.cons.inj hsplit
          exact .inr ⟨before, target, after, given, rfl,
            fun t ht => hbefore t (List.mem_cons_of_mem _ ht), htarget, ho⟩

/-- The observations of an attempt are those of its scans. -/
theorem StepAttempt.mem_returned {o : Observation} :
    o ∈ attempt.returned context ↔
      ∃ target observations, attempt.Scans context target observations ∧ o ∈ observations := by
  rw [returned, mem_returnedBy]
  constructor
  · rintro ⟨before, target, after, observations, hsplit, hbefore, htarget, ho⟩
    exact ⟨target, observations, ⟨before, after, hsplit, hbefore, htarget⟩, ho⟩
  · rintro ⟨target, observations, ⟨before, after, hsplit, hbefore, htarget⟩, ho⟩
    exact ⟨before, target, after, observations, hsplit, hbefore, htarget, ho⟩

/-- The scans of all targets, or the first failure. -/
theorem scanTargets_cases (context : ScanContext) (scan : Scanner) (adapterKey : String)
    (targets : List Str) :
    ((targets.all fun target => (scanTarget context scan adapterKey target).isOk) = true ∧
      (scanTargets context scan adapterKey targets).2 =
        .ok (returnedBy context scan adapterKey targets)) ∨
    (targets.all fun target => (scanTarget context scan adapterKey target).isOk) = false ∧
      ∃ failure, (scanTargets context scan adapterKey targets).2 = .error failure := by
  induction targets with
  | nil => exact .inl ⟨rfl, rfl⟩
  | cons target targets ih =>
    rw [scanTargets, returnedBy, List.all_cons, scanTarget]
    cases hinv : invocation context adapterKey target with
    | error failure => exact .inr ⟨rfl, failure, rfl⟩
    | ok inv =>
      dsimp only
      cases hclassify : classify adapterKey target (scan adapterKey inv) with
      | error failure => exact .inr ⟨rfl, failure, rfl⟩
      | ok observations =>
        rcases ih with ⟨hall, hok⟩ | ⟨hall, failure, herror⟩
        · refine .inl ⟨by rw [hall]; rfl, ?_⟩
          dsimp only
          rw [hok]
          rfl
        · refine .inr ⟨by rw [hall]; rfl, failure, ?_⟩
          dsimp only
          rw [herror]
          rfl

variable {runner : AdapterStepRunner}

/-- **A complete attempt is kept** under the key of its step. -/
theorem run_of_complete (h : attempt.complete runner.context = true) :
    (runner.run attempt.scanner attempt.step).2 =
      .ok { runner with
        observations :=
          runner.observations.set attempt.step.key (attempt.returned runner.context) } := by
  rw [StepAttempt.complete, Bool.and_eq_true, Bool.not_eq_true'] at h
  rw [AdapterStepRunner.run, h.1]
  rcases scanTargets_cases runner.context attempt.scanner attempt.step.runner runner.context.targets
    with ⟨-, hok⟩ | ⟨hall, -⟩
  · simp only [Bool.false_eq_true, if_false, hok]
    rfl
  · exact absurd h.2 (by rw [hall]; decide)

/-- **Of any other attempt nothing is kept.** -/
theorem run_of_incomplete (h : attempt.complete runner.context = false) :
    ∃ failure, (runner.run attempt.scanner attempt.step).2 = .error failure := by
  rw [AdapterStepRunner.run]
  split
  · exact ⟨_, rfl⟩
  next hne =>
    rcases scanTargets_cases runner.context attempt.scanner attempt.step.runner runner.context.targets
      with ⟨hall, -⟩ | ⟨-, failure, herror⟩
    · rw [StepAttempt.complete, hall, Bool.and_true, Bool.not_eq_false'] at h
      exact absurd h hne
    · exact ⟨failure, by simp only [herror]; rfl⟩

end Attempts

/-! ## Drains -/

/-- A drain with its runner. `attempts` is a record of the model. -/
structure AdapterDrain where
  run : PlanRun
  runner : AdapterStepRunner
  attempts : List StepAttempt := []

/-- A move of the drain, or the end of an attempt of the step that a worker runs. -/
inductive DrainLabel
  | move (label : RunLabel)
  | finish (index : ℕ) (scanner : Scanner)

/-- The worker reports the outcome of a step. -/
def RunLabel.isReport : RunLabel → Bool
  | .access (.report _ _) => true
  | _ => false

namespace AdapterDrain

/-- A drain of the plan with a fresh runner. -/
def start (plan : ExecutionPlan) (store : JobStore) (maxWorkers : ℕ) (now : Time) (maxRounds : ℕ)
    (context : ScanContext) : AdapterDrain where
  run := .start plan store maxWorkers now maxRounds
  runner := { context }

/-- One step of a drain; `digest` is the canonical digest of the observations of a step. -/
def step (backend : Backend) (ttl : Time) (digest : List Observation → String) (s : AdapterDrain) :
    DrainLabel → Option AdapterDrain
  | .move label =>
    if label.isReport then none
    else (s.run.step backend ttl label).map fun run => { s with run }
  | .finish index scanner =>
    match s.run.orchestrator.running[index]? with
    | none => none
    | some (_, planStep) =>
      let attempts := s.attempts ++ [⟨planStep, scanner⟩]
      match (s.runner.run scanner planStep).2 with
      | .ok runner =>
        let outcome := .result (digest ((runner.observations.get? planStep.key).getD []))
        (s.run.step backend ttl (.access (.report index outcome))).map fun run =>
          { run, runner, attempts }
      -- `_observations` is assigned after the loop over the targets.
      | .error failure =>
        (s.run.step backend ttl (.access (.report index (.failure failure.failureClass)))).map
          fun run =>
          { run, runner := s.runner, attempts }

/-- The last attempt of the step. -/
def finalAttempt (s : AdapterDrain) (key : String) : Option StepAttempt :=
  lastAttempt (fun attempt => attempt.step.key == key) s.attempts

/-- The last attempt of the step in which every target was scanned. -/
def lastComplete (s : AdapterDrain) (context : ScanContext) (key : String) : Option StepAttempt :=
  lastAttempt (fun attempt => attempt.step.key == key && attempt.complete context) s.attempts

/-- What the scans of the final attempt of a step gave is in `all_observations()`. -/
def NothingLost (s : AdapterDrain) : Prop :=
  ∀ key attempt, s.finalAttempt key = some attempt →
    ∀ target observations, attempt.Scans s.runner.context target observations →
      ∀ o ∈ observations, o ∈ s.runner.allObservations

/-- The runner holds the last complete attempt of each step. -/
structure Kept (context : ScanContext) (s : AdapterDrain) : Prop where
  unchanged : s.runner.context = context
  observations : ∀ key, s.runner.observations.get? key =
    (s.lastComplete context key).map (StepAttempt.returned context)

section Runs

variable {backend : Backend} {ttl : Time} {digest : List Observation → String} {s s' : AdapterDrain}
  {context : ScanContext}

theorem kept_start (plan : ExecutionPlan) (store : JobStore) (maxWorkers : ℕ) (now : Time)
    (maxRounds : ℕ) (context : ScanContext) :
    (start plan store maxWorkers now maxRounds context).Kept context :=
  ⟨rfl, fun _ => rfl⟩

/-- What the end of an attempt leaves behind. -/
theorem step_finish {index : ℕ} {scanner : Scanner}
    (h : s.step backend ttl digest (.finish index scanner) = some s') :
    ∃ attempt : StepAttempt, s'.attempts = s.attempts ++ [attempt] ∧
      s'.runner = if attempt.complete s.runner.context = true then
          { s.runner with
            observations :=
              s.runner.observations.set attempt.step.key (attempt.returned s.runner.context) }
        else s.runner := by
  simp only [step] at h
  split at h
  · cases h
  next leased planStep hrunning =>
    refine ⟨⟨planStep, scanner⟩, ?_⟩
    cases hcomplete : StepAttempt.complete s.runner.context ⟨planStep, scanner⟩ with
    | true =>
      rw [run_of_complete hcomplete] at h
      obtain ⟨run, -, rfl⟩ := Option.map_eq_some_iff.mp h
      exact ⟨rfl, rfl⟩
    | false =>
      obtain ⟨failure, herror⟩ := run_of_incomplete hcomplete
      rw [herror] at h
      obtain ⟨run, -, rfl⟩ := Option.map_eq_some_iff.mp h
      exact ⟨rfl, rfl⟩

/-- **A step of the drain** keeps the last complete attempts. -/
theorem kept_step {label : DrainLabel} (h : s.Kept context)
    (hstep : s.step backend ttl digest label = some s') : s'.Kept context := by
  cases label with
  | move label =>
    simp only [step] at hstep
    split at hstep
    · cases hstep
    · obtain ⟨run, -, rfl⟩ := Option.map_eq_some_iff.mp hstep
      exact ⟨h.unchanged, h.observations⟩
  | finish index scanner =>
    obtain ⟨attempt, hattempts, hrunner⟩ := step_finish hstep
    rw [h.unchanged] at hrunner
    cases hcomplete : attempt.complete context with
    | false =>
      rw [hcomplete, if_neg Bool.false_ne_true] at hrunner
      refine ⟨by rw [hrunner, h.unchanged], fun key => ?_⟩
      rw [hrunner, h.observations key, lastComplete, lastComplete, hattempts, lastAttempt_concat,
        hcomplete, Bool.and_false, if_neg Bool.false_ne_true]
    | true =>
      rw [hcomplete, if_pos rfl] at hrunner
      refine ⟨by rw [hrunner]; exact h.unchanged, fun key => ?_⟩
      rw [hrunner]
      dsimp only
      rw [Dict.get?_set, lastComplete, hattempts, lastAttempt_concat, hcomplete, Bool.and_true]
      by_cases hkey : attempt.step.key = key
      · simp [hkey]
      · rw [if_neg (Ne.symm hkey), if_neg (by simpa using hkey), h.observations key]
        rfl

/-- What `all_observations()` answers: the last complete attempts of all steps. -/
theorem Kept.mem_allObservations (h : s.Kept context) {o : Observation} :
    o ∈ s.runner.allObservations ↔
      ∃ key attempt, s.lastComplete context key = some attempt ∧ o ∈ attempt.returned context := by
  rw [AdapterStepRunner.allObservations, List.mem_flatten]
  constructor
  · rintro ⟨observations, hmem, ho⟩
    obtain ⟨key, hget⟩ := Dict.mem_values.mp hmem
    rw [h.observations key, Option.map_eq_some_iff] at hget
    obtain ⟨attempt, hattempt, rfl⟩ := hget
    exact ⟨key, attempt, hattempt, ho⟩
  · rintro ⟨key, attempt, hattempt, ho⟩
    refine ⟨_, Dict.mem_values.mpr ⟨key, ?_⟩, ho⟩
    rw [h.observations key, hattempt, Option.map_some]

/-- A final attempt that is complete is the last complete attempt. -/
theorem lastComplete_of_finalAttempt {key : String} {attempt : StepAttempt}
    (h : s.finalAttempt key = some attempt) (hcomplete : attempt.complete context = true) :
    s.lastComplete context key = some attempt :=
  lastAttempt_and h hcomplete

end Runs

end AdapterDrain

/-- **No observation of a final attempt is lost**, in a state that any drain reaches, exactly if
whatever the targets gave before one of them failed in the final attempt of a step was also given in the
last complete attempt of some step. -/
theorem nothing_lost_iff {plan : ExecutionPlan} {store : JobStore} {maxWorkers maxRounds : ℕ}
    {now ttl : Time} {context : ScanContext} {backend : Backend} {digest : List Observation → String}
    {s : AdapterDrain}
    (hrun : Reaches (AdapterDrain.step backend ttl digest) (fun _ _ => True)
      (.start plan store maxWorkers now maxRounds context) s) :
    s.NothingLost ↔
      ∀ key attempt, s.finalAttempt key = some attempt → attempt.complete context = false →
        ∀ o ∈ attempt.returned context, ∃ key' attempt',
          s.lastComplete context key' = some attempt' ∧ o ∈ attempt'.returned context := by
  have hkept : s.Kept context := hrun.invariant
    (AdapterDrain.kept_start plan store maxWorkers now maxRounds context)
    fun _ _ _ hkept _ hstep => AdapterDrain.kept_step hkept hstep
  constructor
  · intro h key attempt hfinal _ o ho
    obtain ⟨target, observations, hscans, hmem⟩ := StepAttempt.mem_returned.mp ho
    rw [← hkept.unchanged] at hscans
    exact hkept.mem_allObservations.mp (h key attempt hfinal target observations hscans o hmem)
  · intro h key attempt hfinal target observations hscans o ho
    rw [hkept.unchanged] at hscans
    have hreturned := StepAttempt.mem_returned.mpr ⟨target, observations, hscans, ho⟩
    refine hkept.mem_allObservations.mpr ?_
    cases hcomplete : attempt.complete context with
    | true =>
      exact ⟨key, attempt, AdapterDrain.lastComplete_of_finalAttempt hfinal hcomplete, hreturned⟩
    | false => exact h key attempt hfinal hcomplete o hreturned

/-! ## A target that fails -/

/-- Two hosts. -/
def twoHosts : ScanContext := { targets := ["shop".toList, "mail".toList] }

/-- The first host has an open port, and for the second one there is no parser. -/
def halfScanner : Scanner := fun _ inv =>
  if inv.args = ["shop".toList] then
    .result [{ externalId := "o-1", assetIdentity := "shop", title := "open port", severity := .low }] 0
      []
  else .valueError []

/-- A drain of one step over both hosts. -/
def halfScannedDrain : AdapterDrain :=
  .start ⟨"plan-1", "as-1", 1, [⟨"probe", "probe", .low, .empty, []⟩], "digest"⟩ .empty 1 0 100 twoHosts

/-- The step is attempted once, and fails. -/
def halfScannedLabels : List DrainLabel :=
  [.move (.access .dispatchStep), .move (.access .scan), .move (.access .submit),
    .move (.access (.lease 0)), .finish 0 halfScanner, .move (.access .scanSucceeded),
    .move (.access .scanBlocked), .move .next, .move (.access .scan), .move (.access .scanSucceeded),
    .move (.access .scanBlocked), .move .next]

/-- The step has failed and the drain is over, and the open port of the first host is nowhere. -/
theorem half_scanned_lost :
    ∃ s, runLabels (AdapterDrain.step .memory 300 fun _ => "") halfScannedDrain halfScannedLabels =
        some s ∧
      s.run.phase = .returned .completed ∧
      (s.run.store.get? "job:probe").map Job.status = some .failed ∧ ¬s.NothingLost := by
  have hend : (runLabels (AdapterDrain.step .memory 300 fun _ => "") halfScannedDrain
      halfScannedLabels).map (fun s => (s.run.phase, (s.run.store.get? "job:probe").map Job.status,
        s.runner.allObservations, s.runner.context.targets)) =
      some (.returned .completed, some .failed, [], twoHosts.targets) := by
    decide +kernel
  obtain ⟨s, hs, heq⟩ := Option.map_eq_some_iff.mp hend
  simp only [Prod.mk.injEq] at heq
  obtain ⟨hphase, hstatus, hnone, -⟩ := heq
  refine ⟨s, hs, hphase, hstatus, fun h => ?_⟩
  have hkept : s.Kept twoHosts :=
    (Reaches.of_runLabels hs (runMeets_of_forall fun _ _ _ => trivial)).invariant
      (AdapterDrain.kept_start _ _ _ _ _ _)
      fun _ _ _ hkept _ hstep => AdapterDrain.kept_step hkept hstep
  -- The attempt of the step scanned the first host.
  have hfinal : (runLabels (AdapterDrain.step .memory 300 fun _ => "") halfScannedDrain
      halfScannedLabels).bind (fun s => (s.finalAttempt "probe").map fun attempt =>
        attempt.returned twoHosts) =
      some
        [{ externalId := "o-1", assetIdentity := "shop", title := "open port", severity := .low }] := by
    decide +kernel
  rw [hs] at hfinal
  obtain ⟨attempt, hattempt, hreturned⟩ := Option.map_eq_some_iff.mp hfinal
  obtain ⟨target, observations, hscans, ho⟩ :=
    StepAttempt.mem_returned.mp (hreturned ▸ List.mem_singleton.mpr rfl)
  rw [← hkept.unchanged] at hscans
  have hmem := h "probe" attempt hattempt target observations hscans _ ho
  rw [hnone] at hmem
  cases hmem

/-- The condition at the end of that drain. -/
theorem half_scanned_iff :
    ∃ s, runLabels (AdapterDrain.step .memory 300 fun _ => "") halfScannedDrain halfScannedLabels =
        some s ∧
      (s.NothingLost ↔
        ∀ key attempt, s.finalAttempt key = some attempt → attempt.complete twoHosts = false →
          ∀ o ∈ attempt.returned twoHosts, ∃ key' attempt',
            s.lastComplete twoHosts key' = some attempt' ∧ o ∈ attempt'.returned twoHosts) := by
  have hend : (runLabels (AdapterDrain.step .memory 300 fun _ => "") halfScannedDrain
      halfScannedLabels).isSome = true := by decide +kernel
  obtain ⟨s, hs⟩ := Option.isSome_iff_exists.mp hend
  exact ⟨s, hs, nothing_lost_iff (Reaches.of_runLabels hs (runMeets_of_forall fun _ _ _ => trivial))⟩

end SecOpent
