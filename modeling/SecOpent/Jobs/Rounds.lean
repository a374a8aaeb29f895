import Mathlib.Data.Finset.Lattice.Fold
import Mathlib.Data.Nat.Find
import Mathlib.Order.Lattice.Nat
import SecOpent.Jobs.Course

/-!
# Rounds

A round runs every step that is ready, once, and then unblocks the steps whose dependencies have
succeeded. What a runner makes of a plan in a number of rounds is a function of the plan and of the
outcomes of its calls, whatever order the calls of one round have: a course that has used some rounds
is in the state that this function gives.

## Main definitions

* `rounds`: the states of the steps after some rounds
* `attemptsOf`: how often the runner is called for a step that runs
* `FinishesIn`: the round in which a step ends, along the longest chain of dependencies and retries
* `InRound`: the states of a course in the middle of a round

## Main results

* `rounds_of_finishesIn`, `finishesIn_of_not_blocked`: the state of a step after any number of rounds
* `none_ready_iff`: nothing is ready after some rounds when every step that runs ends within them
* `InRound.step`: courses follow the rounds
-/

namespace SecOpent

/-- What the runner does in each call: the outcome of a step in an attempt. -/
abbrev Runner := String → ℕ → StepOutcome

/-! ## States after some rounds -/

/-- A step after its round: a step that is ready is attempted once. -/
def executed (runner : Runner) (before : String → JobStatus × ℕ) (key : String) : JobStatus × ℕ :=
  if (before key).1 = .ready then
    afterOutcome ((before key).2 + 1) (runner key ((before key).2 + 1))
  else before key

/-- A step after dependencies were resolved. -/
def unblocked (steps : List PlanStep) (before : String → JobStatus × ℕ) (key : String) :
    JobStatus × ℕ :=
  if (before key).1 = .blocked ∧
      ∀ d ∈ dependencyGraph steps key, (before d).1 = .succeeded then (.ready, (before key).2)
  else before key

/-- The steps of a plan after some rounds. -/
def rounds (steps : List PlanStep) (runner : Runner) : ℕ → String → JobStatus × ℕ
  | 0, key => (if dependencyGraph steps key = [] then .ready else .blocked, 0)
  | r + 1, key => unblocked steps (executed runner (rounds steps runner r)) key

/-- Nothing is retried for ever. -/
theorem exists_final (runner : Runner) (key : String) :
    ∃ n, 0 < n ∧ (afterOutcome n (runner key n)).1 ≠ .ready :=
  ⟨maxAttempts, by decide, fun h => Nat.lt_irrefl _ (afterOutcome_ready h)⟩

/-- How often the runner is called for a step that runs: up to the first outcome that is not put
back for a retry. -/
def attemptsOf (runner : Runner) (key : String) : ℕ := Nat.find (exists_final runner key)

/-- The step ends in this round: it is ready when the last of its dependencies has succeeded, and
each attempt takes a round. -/
inductive FinishesIn (steps : List PlanStep) (runner : Runner) : String → ℕ → Prop
  | intro {step : PlanStep} (last : String → ℕ) : step ∈ steps →
      (∀ d ∈ step.dependencies, FinishesIn steps runner d (last d)) →
      (∀ d ∈ step.dependencies, ∃ digest, runner d (attemptsOf runner d) = .result digest) →
      FinishesIn steps runner step.key
        (step.dependencies.toFinset.sup last + attemptsOf runner step.key)

section Rounds

variable {steps : List PlanStep} {runner : Runner} {key : String} {r n : ℕ}

theorem attemptsOf_pos (runner : Runner) (key : String) : 0 < attemptsOf runner key :=
  (Nat.find_spec (exists_final runner key)).1

theorem attemptsOf_le (runner : Runner) (key : String) : attemptsOf runner key ≤ maxAttempts :=
  Nat.find_min' _ ⟨by decide, fun h => Nat.lt_irrefl _ (afterOutcome_ready h)⟩

theorem final_ne_ready (runner : Runner) (key : String) :
    (afterOutcome (attemptsOf runner key) (runner key (attemptsOf runner key))).1 ≠ .ready :=
  (Nat.find_spec (exists_final runner key)).2

theorem ready_of_lt_attemptsOf (hpos : 0 < n) (h : n < attemptsOf runner key) :
    afterOutcome n (runner key n) = (.ready, n) := by
  have hready : (afterOutcome n (runner key n)).1 = .ready := by
    by_contra hne
    exact Nat.find_min (exists_final runner key) h ⟨hpos, hne⟩
  exact Prod.ext hready (afterOutcome_attempts _ _)

theorem dependencyGraph_step (hkeys : (steps.map PlanStep.key).Nodup) {step : PlanStep}
    (hstep : step ∈ steps) : dependencyGraph steps step.key = step.dependencies := by
  have hfind : (steps.find? fun s => s.key == step.key) = some step := by
    cases hfound : steps.find? fun s => s.key == step.key with
    | none => simpa using List.find?_eq_none.mp hfound step hstep
    | some other =>
      have hkey : other.key = step.key := by simpa using List.find?_some hfound
      rw [List.inj_on_of_nodup_map hkeys (List.mem_of_find?_eq_some hfound) hstep hkey]
  rw [dependencyGraph, hfind, Option.map_some, Option.getD_some]

theorem executed_of_ne_ready {before : String → JobStatus × ℕ} (h : (before key).1 ≠ .ready) :
    executed runner before key = before key :=
  if_neg h

theorem unblocked_of_ne_blocked {before : String → JobStatus × ℕ} (h : (before key).1 ≠ .blocked) :
    unblocked steps before key = before key :=
  if_neg fun hblocked => h hblocked.1

/-- A step that has succeeded after a round had succeeded before dependencies were resolved. -/
theorem succeeded_unblocked_iff {before : String → JobStatus × ℕ} :
    (unblocked steps before key).1 = .succeeded ↔ (before key).1 = .succeeded := by
  unfold unblocked
  split_ifs with h
  · simp [h.1]
  · rfl

/-- A step that is neither ready nor blocked is left alone by further rounds. -/
theorem rounds_of_final (hready : (rounds steps runner r key).1 ≠ .ready)
    (hblocked : (rounds steps runner r key).1 ≠ .blocked) (k : ℕ) :
    rounds steps runner (r + k) key = rounds steps runner r key := by
  induction k with
  | zero => rfl
  | succ k ih =>
    have hexecuted : executed runner (rounds steps runner (r + k)) key =
        rounds steps runner r key := by
      rw [executed_of_ne_ready (by rw [ih]; exact hready), ih]
    rw [← Nat.add_assoc, rounds, unblocked_of_ne_blocked (by rw [hexecuted]; exact hblocked),
      hexecuted]

/-- A step that is ready is attempted in the next round. -/
theorem rounds_of_ready {j : ℕ} (h : rounds steps runner r key = (.ready, j)) :
    rounds steps runner (r + 1) key = afterOutcome (j + 1) (runner key (j + 1)) := by
  have hexecuted : executed runner (rounds steps runner r) key =
      afterOutcome (j + 1) (runner key (j + 1)) := by
    rw [executed, h, if_pos rfl]
  rw [rounds, unblocked_of_ne_blocked, hexecuted]
  rw [hexecuted]
  exact afterOutcome_ne_blocked _ _

/-- The attempts of a step, once it is ready. -/
theorem rounds_of_attempts {m : ℕ} (h : rounds steps runner m key = (.ready, 0)) {j : ℕ}
    (hj : j < attemptsOf runner key) : rounds steps runner (m + j) key = (.ready, j) := by
  induction j with
  | zero => exact h
  | succ j ih =>
    rw [← Nat.add_assoc, rounds_of_ready (ih (by omega))]
    exact ready_of_lt_attemptsOf (by omega) hj

/-- The end of a step, once it is ready. -/
theorem rounds_of_end {m : ℕ} (h : rounds steps runner m key = (.ready, 0)) {r : ℕ}
    (hr : m + attemptsOf runner key ≤ r) : rounds steps runner r key =
      afterOutcome (attemptsOf runner key) (runner key (attemptsOf runner key)) := by
  obtain ⟨j, hj⟩ := Nat.exists_eq_succ_of_ne_zero (attemptsOf_pos runner key).ne'
  have hend : rounds steps runner (m + attemptsOf runner key) key =
      afterOutcome (attemptsOf runner key) (runner key (attemptsOf runner key)) := by
    have hlast := rounds_of_ready (rounds_of_attempts h (show j < attemptsOf runner key by omega))
    rw [Nat.add_assoc, ← Nat.succ_eq_add_one, ← hj] at hlast
    exact hlast
  obtain ⟨k, rfl⟩ := Nat.exists_eq_add_of_le hr
  rw [rounds_of_final, hend]
  · rw [hend]
    exact final_ne_ready runner key
  · rw [hend]
    exact afterOutcome_ne_blocked _ _

/-- A step that waits for the first rounds, and then runs. -/
structure Schedule (steps : List PlanStep) (runner : Runner) (key : String) (m : ℕ) : Prop where
  blocked : ∀ r < m, rounds steps runner r key = (.blocked, 0)
  ready : rounds steps runner m key = (.ready, 0)

/-- A step that ends well succeeds in its last round and not before. -/
theorem Schedule.succeeded_iff {m : ℕ} (h : Schedule steps runner key m) {digest : String}
    (hresult : runner key (attemptsOf runner key) = .result digest) :
    (rounds steps runner r key).1 = .succeeded ↔ m + attemptsOf runner key ≤ r := by
  constructor
  · intro hsucceeded
    by_contra hlt
    rcases Nat.lt_or_ge r m with hblocked | hge
    · rw [h.blocked r hblocked] at hsucceeded
      cases hsucceeded
    · obtain ⟨j, rfl⟩ := Nat.exists_eq_add_of_le hge
      rw [rounds_of_attempts h.ready (by omega)] at hsucceeded
      cases hsucceeded
  · intro hle
    rw [rounds_of_end h.ready hle, hresult]
    rfl

/-- **The schedule of a step**: it waits for its dependencies, and then runs. -/
theorem rounds_of_finishesIn (hkeys : (steps.map PlanStep.key).Nodup)
    (h : FinishesIn steps runner key n) :
    ∃ m, n = m + attemptsOf runner key ∧ Schedule steps runner key m := by
  induction h with
  | @intro step last hstep _ hresults ih =>
    have hgraph := dependencyGraph_step hkeys hstep
    set m := step.dependencies.toFinset.sup last with hm
    have hle : ∀ d ∈ step.dependencies, last d ≤ m := fun d hd =>
      Finset.le_sup (List.mem_toFinset.mpr hd)
    have hsucceeded : ∀ d ∈ step.dependencies, ∀ r,
        (rounds steps runner r d).1 = .succeeded ↔ last d ≤ r := by
      intro d hd r
      obtain ⟨m', hlast, hschedule⟩ := ih d hd
      obtain ⟨digest, hdigest⟩ := hresults d hd
      rw [hschedule.succeeded_iff hdigest, hlast]
    have hpos : ∀ d ∈ step.dependencies, 0 < last d := by
      intro d hd
      obtain ⟨m', hlast, -⟩ := ih d hd
      have := attemptsOf_pos runner d
      omega
    -- While some dependency has not succeeded, the step stays blocked.
    have hblocked : ∀ r < m, rounds steps runner r step.key = (.blocked, 0) := by
      intro r
      induction r with
      | zero =>
        intro hlt
        have hne : step.dependencies ≠ [] := by
          intro hnil
          simp [hm, hnil] at hlt
        rw [rounds, hgraph, if_neg hne]
      | succ r ihr =>
        intro hlt
        have hbefore := ihr (by omega)
        have hsame : executed runner (rounds steps runner r) step.key = (.blocked, 0) := by
          rw [executed_of_ne_ready (by rw [hbefore]; exact JobStatus.noConfusion), hbefore]
        rw [rounds, unblocked, hsame, if_neg]
        rintro ⟨-, hall⟩
        obtain ⟨d, hd, hlate⟩ := Finset.lt_sup_iff.mp hlt
        rw [List.mem_toFinset] at hd
        have hd' : (rounds steps runner (r + 1) d).1 = .succeeded :=
          succeeded_unblocked_iff.mpr (hall d (hgraph ▸ hd))
        exact absurd ((hsucceeded d hd (r + 1)).mp hd') (by omega)
    refine ⟨m, rfl, hblocked, ?_⟩
    cases hcase : m with
    | zero =>
      -- A dependency ends after the first round.
      have hnil : step.dependencies = [] := by
        rw [List.eq_nil_iff_forall_not_mem]
        intro d hd
        have := hle d hd
        have := hpos d hd
        omega
      rw [rounds, hgraph, if_pos hnil]
    | succ m' =>
      have hbefore := hblocked m' (by omega)
      have hsame : executed runner (rounds steps runner m') step.key = (.blocked, 0) := by
        rw [executed_of_ne_ready (by rw [hbefore]; exact JobStatus.noConfusion), hbefore]
      rw [rounds, unblocked, hsame, if_pos]
      refine ⟨rfl, fun d hd => ?_⟩
      rw [hgraph] at hd
      have hdone := (hsucceeded d hd (m' + 1)).mpr (by rw [← hcase]; exact hle d hd)
      exact succeeded_unblocked_iff.mp hdone

/-- A step that is no longer blocked ends in some round. -/
theorem finishesIn_of_not_blocked (hkeys : (steps.map PlanStep.key).Nodup)
    (hdependencies : ∀ step ∈ steps, ∀ d ∈ step.dependencies, d ∈ steps.map PlanStep.key)
    {step : PlanStep} (hstep : step ∈ steps)
    (h : (rounds steps runner r step.key).1 ≠ .blocked) :
    ∃ n, FinishesIn steps runner step.key n := by
  induction r generalizing step with
  | zero =>
    have hnil : step.dependencies = [] := by
      by_contra hne
      exact h (by rw [rounds, dependencyGraph_step hkeys hstep, if_neg hne])
    refine ⟨_, .intro (fun _ => 0) hstep ?_ ?_⟩ <;> simp [hnil]
  | succ r ih =>
    by_cases hbefore : (rounds steps runner r step.key).1 = .blocked
    swap
    · exact ih hstep hbefore
    have hsame : executed runner (rounds steps runner r) step.key =
        rounds steps runner r step.key :=
      executed_of_ne_ready (by rw [hbefore]; exact JobStatus.noConfusion)
    -- The step was unblocked in this round, by dependencies that have all ended well.
    have hall : ∀ d ∈ step.dependencies,
        (executed runner (rounds steps runner r) d).1 = .succeeded := by
      by_contra hnot
      refine h ?_
      rw [rounds, unblocked, hsame, dependencyGraph_step hkeys hstep,
        if_neg fun hboth => hnot hboth.2, hbefore]
    have hdone : ∀ d, ∃ n, d ∈ step.dependencies → FinishesIn steps runner d n ∧
        ∃ digest, runner d (attemptsOf runner d) = .result digest := by
      intro d
      by_cases hd : d ∈ step.dependencies
      swap
      · exact ⟨0, fun hmem => absurd hmem hd⟩
      obtain ⟨other, hother, rfl⟩ := List.mem_map.mp (hdependencies step hstep d hd)
      have hran : (rounds steps runner r other.key).1 ≠ .blocked := by
        intro hblocked
        have hdone := hall other.key hd
        rw [executed_of_ne_ready (by rw [hblocked]; exact JobStatus.noConfusion), hblocked] at hdone
        cases hdone
      obtain ⟨n, hn⟩ := ih hother hran
      refine ⟨n, fun _ => ⟨hn, ?_⟩⟩
      obtain ⟨m, -, hschedule⟩ := rounds_of_finishesIn hkeys hn
      have hsucceeded : (rounds steps runner (r + 1) other.key).1 = .succeeded :=
        succeeded_unblocked_iff.mpr (hall other.key hd)
      have hlate : m + attemptsOf runner other.key ≤ r + 1 := by
        by_contra hlt
        rcases Nat.lt_or_ge (r + 1) m with hblocked | hge
        · rw [hschedule.blocked _ hblocked] at hsucceeded
          cases hsucceeded
        · obtain ⟨j, hj⟩ := Nat.exists_eq_add_of_le hge
          rw [hj, rounds_of_attempts hschedule.ready (by omega)] at hsucceeded
          cases hsucceeded
      rw [rounds_of_end hschedule.ready hlate] at hsucceeded
      exact afterOutcome_succeeded hsucceeded
    choose last hlast using hdone
    exact ⟨_, .intro last hstep (fun d hd => (hlast d hd).1) fun d hd => (hlast d hd).2⟩

/-- **When the rounds are enough**: nothing is ready after `maxRounds` rounds exactly when every
step that runs ends within them. -/
theorem none_ready_iff (hkeys : (steps.map PlanStep.key).Nodup)
    (hdependencies : ∀ step ∈ steps, ∀ d ∈ step.dependencies, d ∈ steps.map PlanStep.key)
    {maxRounds : ℕ} :
    (∀ step ∈ steps, (rounds steps runner maxRounds step.key).1 ≠ .ready) ↔
      ∀ key n, FinishesIn steps runner key n → n ≤ maxRounds := by
  constructor
  · intro hnone key n hfinishes
    induction hfinishes with
    | @intro step last hstep hlast hresults ih =>
      obtain ⟨m, hm, hschedule⟩ := rounds_of_finishesIn hkeys (.intro last hstep hlast hresults)
      have hle : step.dependencies.toFinset.sup last ≤ maxRounds :=
        Finset.sup_le fun d hd => ih d (List.mem_toFinset.mp hd)
      -- A step that has become ready and has not ended is ready.
      by_contra hlt
      have hmle : m ≤ maxRounds := by omega
      obtain ⟨j, rfl⟩ := Nat.exists_eq_add_of_le hmle
      have hready := rounds_of_attempts hschedule.ready (show j < attemptsOf runner step.key by omega)
      exact hnone step hstep (by rw [hready])
  · intro hall step hstep hready
    obtain ⟨n, hn⟩ := finishesIn_of_not_blocked hkeys hdependencies hstep
      (by rw [hready]; exact JobStatus.noConfusion)
    obtain ⟨m, rfl, hschedule⟩ := rounds_of_finishesIn hkeys hn
    rw [rounds_of_end hschedule.ready (hall _ _ hn)] at hready
    exact final_ne_ready runner step.key hready

/-- After every round, no step waits for dependencies that have all succeeded. -/
theorem not_unblockable (hkeys : (steps.map PlanStep.key).Nodup) {step : PlanStep}
    (hstep : step ∈ steps) (hblocked : (rounds steps runner r step.key).1 = .blocked) :
    ∃ d ∈ step.dependencies, (rounds steps runner r d).1 ≠ .succeeded := by
  cases r with
  | zero =>
    have hne : step.dependencies ≠ [] := by
      intro hnil
      rw [rounds, dependencyGraph_step hkeys hstep, if_pos hnil] at hblocked
      cases hblocked
    obtain ⟨d, hd⟩ := List.exists_mem_of_ne_nil _ hne
    refine ⟨d, hd, ?_⟩
    rw [rounds]
    split_ifs <;> exact JobStatus.noConfusion
  | succ r =>
    by_contra hall
    have hall' : ∀ d ∈ step.dependencies,
        (executed runner (rounds steps runner r) d).1 = .succeeded := by
      intro d hd
      by_contra hne
      exact hall ⟨d, hd, fun hsucceeded => hne (succeeded_unblocked_iff.mp hsucceeded)⟩
    rw [rounds, unblocked, dependencyGraph_step hkeys hstep] at hblocked
    split_ifs at hblocked with hboth
    exact hboth ⟨hblocked, hall'⟩

/-- Rounds in which nothing is ready change nothing. -/
theorem rounds_of_none_ready (hkeys : (steps.map PlanStep.key).Nodup)
    (hdependencies : ∀ step ∈ steps, ∀ d ∈ step.dependencies, d ∈ steps.map PlanStep.key)
    (hnone : ∀ step ∈ steps, (rounds steps runner r step.key).1 ≠ .ready) (k : ℕ) :
    ∀ step ∈ steps, rounds steps runner (r + k) step.key = rounds steps runner r step.key := by
  induction k with
  | zero => exact fun _ _ => rfl
  | succ k ih =>
    have hsame : ∀ step ∈ steps, executed runner (rounds steps runner (r + k)) step.key =
        rounds steps runner r step.key := by
      intro step hstep
      rw [executed_of_ne_ready (by rw [ih step hstep]; exact hnone step hstep), ih step hstep]
    intro step hstep
    rw [← Nat.add_assoc, rounds, unblocked, hsame step hstep, if_neg]
    rintro ⟨hblocked, hall⟩
    obtain ⟨d, hd, hne⟩ := not_unblockable hkeys hstep hblocked
    obtain ⟨other, hother, rfl⟩ := List.mem_map.mp (hdependencies step hstep d hd)
    refine hne ?_
    rw [← hsame other hother]
    exact hall other.key (by rw [dependencyGraph_step hkeys hstep]; exact hd)

/-- The statuses that a step may have between two rounds. -/
theorem rounds_status (steps : List PlanStep) (runner : Runner) (r : ℕ) (key : String) :
    (rounds steps runner r key).1 ∈
      [JobStatus.blocked, .ready, .succeeded, .failed, .policyDenied] := by
  have hafter : ∀ n outcome, (afterOutcome n outcome).1 ∈
      [JobStatus.blocked, .ready, .succeeded, .failed, .policyDenied] := by
    intro n outcome
    cases outcome with
    | result digest => simp [afterOutcome]
    | failure failure =>
      simp only [afterOutcome]
      split_ifs <;> simp
  induction r with
  | zero =>
    rw [rounds]
    split_ifs <;> simp
  | succ r ih =>
    have hexecuted : (executed runner (rounds steps runner r) key).1 ∈
        [JobStatus.blocked, .ready, .succeeded, .failed, .policyDenied] := by
      rw [executed]
      split_ifs
      exacts [hafter _ _, ih]
    rw [rounds, unblocked]
    split_ifs
    exacts [by simp, hexecuted]

end Rounds

/-! ## Courses follow the rounds -/

/-- The outcomes of a log are those of the runner. -/
def Obeys (runner : Runner) (log : List RunEvent) : Prop :=
  ∀ key attempt outcome, .ended key attempt outcome ∈ log → outcome = runner key attempt

/-- A step in the middle of a round. -/
def midRound (runner : Runner) (before : String → JobStatus × ℕ) (waiting running : Finset String)
    (key : String) : JobStatus × ℕ :=
  if key ∈ waiting then before key
  else if key ∈ running then (.leased, (before key).2 + 1)
  else executed runner before key

/-- Where a course is, of at most `maxRounds` rounds. -/
def InRound (steps : List PlanStep) (runner : Runner) (maxRounds : ℕ) (c : Course) : Prop :=
  match c.phase with
  | .scanning left => left ≤ maxRounds ∧ (c.AllDispatched steps ∨ left = maxRounds) ∧
      ∀ step ∈ steps, ∀ x, c.states step.key = some x →
        x = rounds steps runner (maxRounds - left) step.key
  | .executing left executing => ∃ r, r + left + 1 = maxRounds ∧
      (executing = true ↔ ∃ step ∈ steps, (rounds steps runner r step.key).1 = .ready) ∧
      ∀ step ∈ steps,
        c.states step.key =
            some (midRound runner (rounds steps runner r) c.waiting c.running step.key) ∧
          (step.key ∈ c.waiting ∨ step.key ∈ c.running →
            (rounds steps runner r step.key).1 = .ready)
  | .resolving left executing => ∃ r, r + left + 1 = maxRounds ∧
      (executing = true ↔ ∃ step ∈ steps, (rounds steps runner r step.key).1 = .ready) ∧
      ∀ step ∈ steps,
        c.states step.key = some (executed runner (rounds steps runner r) step.key)
  | .marking left executing => ∃ r, r + left + 1 = maxRounds ∧
      (executing = true ↔ ∃ step ∈ steps, (rounds steps runner r step.key).1 = .ready) ∧
      ∀ step ∈ steps,
        if step.key ∈ c.marked then
          c.states step.key = some (executed runner (rounds steps runner r) step.key) ∧
            rounds steps runner (r + 1) step.key =
              (.ready, (executed runner (rounds steps runner r) step.key).2)
        else c.states step.key = some (rounds steps runner (r + 1) step.key)
  | .stopping answer => answer ≠ .completed
  | .returned .completed => ∀ step ∈ steps,
      c.states step.key = some (rounds steps runner maxRounds step.key)
  | _ => True

section InRound

variable {steps : List PlanStep} {runner : Runner} {maxRounds : ℕ} {c c' : Course}

theorem InRound.began {key : String} {n : ℕ} (h : InRound steps runner maxRounds c)
    (hphase : c.phase.RunsSteps) (hwaiting : key ∈ c.waiting)
    (hready : c.states key = some (.ready, n)) :
    InRound steps runner maxRounds { c with
      states := Function.update c.states key (some (.leased, n + 1))
      waiting := c.waiting.erase key
      running := insert key c.running
      log := c.log ++ [.began key (n + 1)] } := by
  rcases hphase with ⟨left, executing, hphase⟩ | ⟨answer, hphase⟩
  · simp only [InRound, hphase] at h ⊢
    obtain ⟨r, hr, hexecuting, hsteps⟩ := h
    refine ⟨r, hr, hexecuting, fun step hstep => ?_⟩
    obtain ⟨hstate, hmem⟩ := hsteps step hstep
    by_cases heq : step.key = key
    · subst heq
      rw [midRound, if_pos hwaiting, hready, Option.some.injEq] at hstate
      simp only [Function.update_self]
      exact ⟨by simp [midRound, ← hstate], fun _ => by rw [← hstate]⟩
    · -- The other steps stay where they are.
      rw [Function.update_of_ne heq, hstate]
      exact ⟨by simp [midRound, heq], by simpa [heq] using hmem⟩
  · simp only [InRound, hphase] at h ⊢
    exact h

theorem InRound.ended {key : String} {n : ℕ} {outcome : StepOutcome}
    (h : InRound steps runner maxRounds c) (hphase : c.phase.RunsSteps) (hrunning : key ∈ c.running)
    (hleased : c.states key = some (.leased, n)) (hrunner : outcome = runner key n) :
    InRound steps runner maxRounds { c with
      states := Function.update c.states key (some (afterOutcome n outcome))
      running := c.running.erase key
      log := c.log ++ [.ended key n outcome] } := by
  rcases hphase with ⟨left, executing, hphase⟩ | ⟨answer, hphase⟩
  · simp only [InRound, hphase] at h ⊢
    obtain ⟨r, hr, hexecuting, hsteps⟩ := h
    refine ⟨r, hr, hexecuting, fun step hstep => ?_⟩
    obtain ⟨hstate, hmem⟩ := hsteps step hstep
    by_cases heq : step.key = key
    · subst heq
      have hready := hmem (.inr hrunning)
      -- A step that waits is ready, and this one is leased.
      have hnotWaiting : step.key ∉ c.waiting := by
        intro hwaiting
        rw [midRound, if_pos hwaiting, hleased, Option.some.injEq] at hstate
        rw [← hstate] at hready
        cases hready
      rw [midRound, if_neg hnotWaiting, if_pos hrunning, hleased, Option.some.injEq,
        Prod.mk.injEq] at hstate
      simp only [Function.update_self]
      refine ⟨?_, fun _ => hready⟩
      rw [midRound, if_neg hnotWaiting, if_neg (by simp), executed, if_pos hready, ← hstate.2,
        hrunner]
    · -- The other steps stay where they are.
      rw [Function.update_of_ne heq, hstate]
      exact ⟨by simp [midRound, heq], by simpa [heq] using hmem⟩
  · simp only [InRound, hphase] at h ⊢
    exact h

/-- The ready steps are found at the beginning of a round. -/
theorem InRound.scanned {waiting : Finset String} {left : ℕ} (h : InRound steps runner maxRounds c)
    (hphase : c.phase = .scanning (left + 1)) (hall : c.AllDispatched steps) (hrunning : c.running = ∅)
    (hwaiting : ∀ key, key ∈ waiting ↔ ∃ step ∈ steps, step.key = key ∧
      ∃ n, c.states key = some (.ready, n)) :
    InRound steps runner maxRounds
      { c with waiting, phase := .executing left (decide waiting.Nonempty) } := by
  simp only [InRound, hphase] at h ⊢
  obtain ⟨hle, -, hstates⟩ := h
  have hstate : ∀ step ∈ steps, c.states step.key =
      some (rounds steps runner (maxRounds - (left + 1)) step.key) := by
    intro step hmem
    obtain ⟨x, hx⟩ := hall step hmem
    rw [hx, hstates step hmem x hx]
  have hready : ∀ step ∈ steps, step.key ∈ waiting ↔
      (rounds steps runner (maxRounds - (left + 1)) step.key).1 = .ready := by
    intro step hmem
    rw [hwaiting]
    constructor
    · rintro ⟨-, -, -, n, hn⟩
      rw [hstate step hmem, Option.some.injEq] at hn
      rw [hn]
    · intro hready
      exact ⟨step, hmem, rfl, _, by rw [hstate step hmem]; exact congrArg some (Prod.ext hready rfl)⟩
  refine ⟨maxRounds - (left + 1), by omega, ?_, fun step hmem => ⟨?_, ?_⟩⟩
  · rw [decide_eq_true_iff]
    constructor
    · rintro ⟨key, hkey⟩
      obtain ⟨step, hmem, rfl, -⟩ := (hwaiting key).mp hkey
      exact ⟨step, hmem, (hready step hmem).mp hkey⟩
    · rintro ⟨step, hmem, hstep⟩
      exact ⟨step.key, (hready step hmem).mpr hstep⟩
  · rw [hstate step hmem, midRound]
    split_ifs with hin hrun
    · rfl
    · simp [hrunning] at hrun
    · rw [executed_of_ne_ready fun hstep => hin ((hready step hmem).mpr hstep)]
  · rintro (hin | hrun)
    · exact (hready step hmem).mp hin
    · simp [hrunning] at hrun

/-- The blocked steps whose dependencies have succeeded are found. -/
theorem InRound.found {marked : Finset String} {left : ℕ} {executing : Bool}
    (hkeys : (steps.map PlanStep.key).Nodup)
    (hdependencies : ∀ step ∈ steps, ∀ d ∈ step.dependencies, d ∈ steps.map PlanStep.key)
    (h : InRound steps runner maxRounds c) (hphase : c.phase = .resolving left executing)
    (hmarked : ∀ key, key ∈ marked ↔ ∃ step ∈ steps, step.key = key ∧
      (∃ n, c.states key = some (.blocked, n)) ∧ ∀ d ∈ step.dependencies, c.Succeeded d) :
    InRound steps runner maxRounds { c with marked, phase := .marking left executing } := by
  simp only [InRound, hphase] at h ⊢
  obtain ⟨r, hr, hexecuting, hsteps⟩ := h
  refine ⟨r, hr, hexecuting, fun step hmem => ?_⟩
  -- A dependency has succeeded in the course exactly when it has in the rounds.
  have hsucceeded : ∀ d ∈ step.dependencies, c.Succeeded d ↔
      (executed runner (rounds steps runner r) d).1 = .succeeded := by
    intro d hd
    obtain ⟨other, hother, rfl⟩ := List.mem_map.mp (hdependencies step hmem d hd)
    rw [Course.Succeeded, hsteps other hother]
    constructor
    · rintro ⟨n, hn⟩
      rw [Option.some.inj hn]
    · exact fun hstatus => ⟨_, congrArg some (Prod.ext hstatus rfl)⟩
  have hiff := hmarked step.key
  split_ifs with hin
  · obtain ⟨other, hother, hkey, ⟨n, hn⟩, hall⟩ := hiff.mp hin
    rw [List.inj_on_of_nodup_map hkeys hother hmem hkey] at hall
    rw [hsteps step hmem, Option.some.injEq] at hn
    refine ⟨hsteps step hmem, ?_⟩
    rw [rounds, unblocked, dependencyGraph_step hkeys hmem, if_pos]
    exact ⟨by rw [hn], fun d hd => (hsucceeded d hd).mp (hall d hd)⟩
  · rw [hsteps step hmem, rounds, unblocked, dependencyGraph_step hkeys hmem, if_neg]
    rintro ⟨hblocked, hall⟩
    have hstate : c.states step.key =
        some (.blocked, (executed runner (rounds steps runner r) step.key).2) := by
      rw [hsteps step hmem]
      exact congrArg some (Prod.ext hblocked rfl)
    exact hin (hiff.mpr
      ⟨step, hmem, rfl, ⟨_, hstate⟩, fun d hd => (hsucceeded d hd).mpr (hall d hd)⟩)

/-- A round ends: the next one begins, or nothing was ready in this one. -/
theorem InRound.next {left : ℕ} {executing : Bool} (hkeys : (steps.map PlanStep.key).Nodup)
    (hdependencies : ∀ step ∈ steps, ∀ d ∈ step.dependencies, d ∈ steps.map PlanStep.key)
    (h : InRound steps runner maxRounds c) (hphase : c.phase = .marking left executing)
    (hmarked : c.marked = ∅) :
    InRound steps runner maxRounds
      { c with phase := if executing then .scanning left else .returned .completed } := by
  simp only [InRound, hphase] at h
  obtain ⟨r, hr, hexecuting, hsteps⟩ := h
  have hstates : ∀ step ∈ steps,
      c.states step.key = some (rounds steps runner (r + 1) step.key) := by
    intro step hmem
    have hstep := hsteps step hmem
    rwa [if_neg (by simp [hmarked])] at hstep
  cases executing with
  | true =>
    refine ⟨by omega, .inl fun step hmem => ⟨_, hstates step hmem⟩, fun step hmem x hx => ?_⟩
    rw [hstates step hmem, Option.some.injEq] at hx
    rw [← hx, show maxRounds - left = r + 1 by omega]
  | false =>
    -- An empty round: the remaining ones would be empty too.
    have hnone : ∀ step ∈ steps, (rounds steps runner r step.key).1 ≠ .ready := by
      intro step hmem hready
      exact absurd (hexecuting.mpr ⟨step, hmem, hready⟩) Bool.false_ne_true
    intro step hmem
    have hsame := fun k => rounds_of_none_ready hkeys hdependencies hnone k step hmem
    rw [show maxRounds = r + (left + 1) by omega, hsame, hstates step hmem, hsame]

/-- **Every step of a course follows the rounds.** -/
theorem InRound.step (hkeys : (steps.map PlanStep.key).Nodup)
    (hdependencies : ∀ step ∈ steps, ∀ d ∈ step.dependencies, d ∈ steps.map PlanStep.key)
    (h : InRound steps runner maxRounds c) (hstep : c.Step steps c')
    (hobeys : Obeys runner c'.log) : InRound steps runner maxRounds c' := by
  cases hstep with
  | quiet => exact h
  | @dispatched step left hphase hmem hnone =>
    simp only [InRound, hphase] at h ⊢
    obtain ⟨hle, hall, hstates⟩ := h
    -- A step is dispatched before the first round.
    have hfirst : left = maxRounds := by
      refine hall.resolve_left fun hall => ?_
      obtain ⟨x, hx⟩ := hall step hmem
      rw [hnone] at hx
      cases hx
    refine ⟨hle, .inr hfirst, fun other hother x hx => ?_⟩
    by_cases heq : other.key = step.key
    · rw [heq, Function.update_self, Option.some.injEq] at hx
      rw [← hx, heq, hfirst, Nat.sub_self, rounds, dependencyGraph_step hkeys hmem]
      rfl
    · rw [Function.update_of_ne heq] at hx
      exact hstates other hother x hx
  | scanned hphase hall hrunning hwaiting => exact h.scanned hphase hall hrunning hwaiting
  | began hphase hwaiting hready => exact h.began hphase hwaiting hready
  | ended outcome hphase hrunning hleased =>
    exact h.ended hphase hrunning hleased (hobeys _ _ _ (by simp))
  | gathered hphase hwaiting hrunning =>
    simp only [InRound, hphase] at h ⊢
    obtain ⟨r, hr, hexecuting, hsteps⟩ := h
    refine ⟨r, hr, hexecuting, fun step hmem => ?_⟩
    rw [(hsteps step hmem).1, midRound, if_neg (by simp [hwaiting]), if_neg (by simp [hrunning])]
  | found hphase hmarked => exact h.found hkeys hdependencies hphase hmarked
  | @readied key n left executing hphase hmarked hblocked =>
    simp only [InRound, hphase] at h ⊢
    obtain ⟨r, hr, hexecuting, hsteps⟩ := h
    refine ⟨r, hr, hexecuting, fun step hmem => ?_⟩
    have hstep := hsteps step hmem
    by_cases heq : step.key = key
    · subst heq
      rw [if_pos hmarked, hblocked, Option.some.injEq] at hstep
      rw [if_neg (by simp), Function.update_self, hstep.2, ← hstep.1]
    · rw [Function.update_of_ne heq]
      simpa [heq] using hstep
  | next hphase hmarked => exact h.next hkeys hdependencies hphase hmarked
  | exhausted hphase hall =>
    simp only [InRound, hphase] at h ⊢
    obtain ⟨-, -, hstates⟩ := h
    intro step hmem
    obtain ⟨x, hx⟩ := hall step hmem
    rw [hx, hstates step hmem x hx, Nat.sub_zero]
  | stopped hphase hanswer => exact hanswer
  | @left answer hphase =>
    simp only [InRound, hphase] at h
    cases answer with
    | completed => exact absurd rfl h
    | paused | cancelled => exact trivial

end InRound

end SecOpent
