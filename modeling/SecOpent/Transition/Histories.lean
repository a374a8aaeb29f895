import Mathlib.Data.List.Induction
import SecOpent.Transition.Conditions

/-!
# What happened in a run

A state does not say how it was reached. What is told of a record with regard to the past, that someone
approved it before, is a property of the labels of a run together with its last state.

## Main definitions

* `Takes step s labels l t`: the run from `s` takes the step `l` at the state `t`

## Main results

* `Takes.concat`, `Takes.last`: the steps of a run that goes on
* `history_induction`: what every further step keeps holds of every run and its last state
-/

namespace Transition

variable {σ ℓ : Type} {step : σ → ℓ → Option σ} {s t u : σ} {labels : List ℓ} {l l' : ℓ}

/-- The run takes the step `l` at the state `t`. -/
def Takes (step : σ → ℓ → Option σ) (s : σ) (labels : List ℓ) (l : ℓ) (t : σ) : Prop :=
  ∃ before after, labels = before ++ l :: after ∧ runLabels step s before = some t

theorem Takes.mem (h : Takes step s labels l t) : l ∈ labels := by
  obtain ⟨before, after, rfl, -⟩ := h
  simp

/-- What a run takes is taken by every run that goes on from it. -/
theorem Takes.concat (h : Takes step s labels l t) (l' : ℓ) : Takes step s (labels ++ [l']) l t := by
  obtain ⟨before, after, rfl, hbefore⟩ := h
  exact ⟨before, after ++ [l'], by simp, hbefore⟩

/-- The last step of a run. -/
theorem Takes.last (h : runLabels step s labels = some t) (l : ℓ) :
    Takes step s (labels ++ [l]) l t :=
  ⟨labels, [], rfl, h⟩

theorem runLabels_concat_iff :
    runLabels step s (labels ++ [l]) = some u ↔
      ∃ t, runLabels step s labels = some t ∧ step t l = some u := by
  rw [runLabels_append, Option.bind_eq_some_iff]
  refine exists_congr fun t => and_congr_right fun _ => ?_
  simp [runLabels]

/-- **What holds at the start and is kept by one more step** holds of every run. -/
theorem history_induction {P : List ℓ → σ → Prop} (hstart : P [] s)
    (hstep : ∀ labels t l u, runLabels step s labels = some t → P labels t → step t l = some u →
      P (labels ++ [l]) u)
    (h : runLabels step s labels = some t) : P labels t := by
  induction labels using List.reverseRecOn generalizing t with
  | nil =>
    cases h
    exact hstart
  | append_singleton labels l ih =>
    obtain ⟨u, hu, hlast⟩ := runLabels_concat_iff.mp h
    exact hstep labels u l t hu (ih hu) hlast

end Transition
