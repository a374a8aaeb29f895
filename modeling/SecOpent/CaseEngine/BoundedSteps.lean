import Mathlib.Algebra.Order.Field.Rat
import SecOpent.CaseEngine.AssertionResults
import SecOpent.Python.Floats

/-!
# The bounds of iterating steps

A step that iterates or waits passes `compute_risk` with any true value under one of five keys.
`_check_caps` looks at one key of each verb, or at two, and compares integers only; what it does not
compare is not bounded. `wait` is compared by its seconds, and not by any of the five keys.

## Main definitions

* `AtMost`: a value is a number that is not above a cap
* `capOf`: the cap of a verb
* `Claimed`: the values of a step that have to be within its cap
* `Compared`: the values of a step that are compared
* `Enforced`, `RestWithinCap`: all values are within the cap, and those that are not compared are

## Main results

* `checkCap_eq_ok_iff`: when a value passes
* `atMost_of_compared`: what is compared is within the cap of a step that passes
* `enforced_iff`: the bounds of a step that a run gets past are enforced exactly if those that are not
  compared are within the cap
-/

namespace SecOpent

open Python

/-! ## Numbers -/

/-- The value is a number that is not above the cap; a boolean counts as an integer. -/
def AtMost (cap : ℤ) : Json → Prop
  | .bool value => (if value then 1 else 0) ≤ cap
  | .int value => value ≤ cap
  | .float value => floatValue value ≤ cap
  | _ => False

theorem atMost_of_jsonInt {cap n : ℤ} {value : Json} (h : jsonInt value = some n) :
    AtMost cap value ↔ n ≤ cap := by
  cases value with
  | bool value =>
    cases h
    rfl
  | int value =>
    cases h
    rfl
  | _ => cases h

namespace CaseInterpreter

variable {V : Type} (interpreter : CaseInterpreter V)

/-- The cap of an iterating or waiting step. -/
def capOf (step : CaseStep) : Option ℤ :=
  if interpreter.verb step = "foreach".toList then some foreachLimitCap
  else if interpreter.verb step = "retry".toList then some retryLimitCap
  else if interpreter.verb step = "wait".toList then some waitSecondsCap
  else none

/-- The step has this value, which has to be within its cap: a true value under a key with which
`compute_risk` takes the step as bounded, or the seconds of a wait. -/
inductive Claimed (step : CaseStep) : String → Json → Prop
  | bound {key : String} {value : Json} : key ∈ boundKeys → step.spec.get? key = some value →
      truthy value = true → Claimed step key value
  | seconds {value : Json} : interpreter.verb step = "wait".toList →
      step.spec.get? "seconds" = some value → Claimed step "seconds" value

/-- `_check_caps` compares this value of the step: an integer, under the key that it reads. -/
def Compared (step : CaseStep) (key : String) (value : Json) : Prop :=
  (jsonInt value).isSome = true ∧
    (interpreter.verb step = "foreach".toList ∧ key = "limit" ∨
      interpreter.verb step = "retry".toList ∧
        (key = "limit" ∨ key = "max" ∧ step.gives "limit" = false) ∨
      interpreter.verb step = "wait".toList ∧ key = "seconds")

/-- Every value of the step that has to be within its cap is a number that is not above it. -/
def Enforced (step : CaseStep) : Prop :=
  ∀ cap, interpreter.capOf step = some cap →
    ∀ key value, interpreter.Claimed step key value → AtMost cap value

/-- The values of the step that `_check_caps` does not compare are numbers that are not above its
cap. -/
def RestWithinCap (step : CaseStep) : Prop :=
  ∀ cap, interpreter.capOf step = some cap →
    ∀ key value, interpreter.Claimed step key value → ¬interpreter.Compared step key value →
      AtMost cap value

variable {interpreter} {case : CaseDefinition} {step : CaseStep} {cap : ℤ} {key : String}
  {value : Json}

theorem checkCap_eq_ok_iff {given : Option Json} {text : String → String} :
    checkCap given cap text = .ok () ↔
      ∀ value ∈ given, ∀ n, jsonInt value = some n → n ≤ cap := by
  unfold checkCap
  cases given with
  | none => simp
  | some value =>
    simp only [Option.bind_some, Option.mem_def, Option.some.injEq, forall_eq']
    cases jsonInt value with
    | none => simp
    | some n =>
      simp only [Option.some.injEq, forall_eq']
      split
      next h => simp [Int.not_le.mpr h]
      next h => simp [Int.not_lt.mp h]

/-- The value that a retry is compared by is a true limit, or else the maximum. -/
theorem retries_eq_some_of_compared (hkey : key = "limit" ∨ key = "max" ∧ step.gives "limit" = false)
    (hget : step.spec.get? key = some value) (htruthy : truthy value = true) :
    step.retries = some value := by
  unfold CaseStep.retries
  rcases hkey with rfl | ⟨rfl, hlimit⟩
  · have hgives : step.gives "limit" = true := by
      unfold CaseStep.gives
      rw [hget]
      exact htruthy
    rw [if_pos hgives, hget]
  · rw [hlimit, if_neg Bool.false_ne_true, hget]

theorem Claimed.get?_eq (h : interpreter.Claimed step key value) :
    step.spec.get? key = some value := by
  cases h with
  | bound _ hget _ => exact hget
  | seconds _ hget => exact hget

/-- **What is compared is within the cap** of a step that passes the look at its bound. -/
theorem atMost_of_compared (hcaps : interpreter.checkCaps step = .ok ())
    (hcap : interpreter.capOf step = some cap) (hclaimed : interpreter.Claimed step key value)
    (hcompared : interpreter.Compared step key value) : AtMost cap value := by
  obtain ⟨hint, hkey⟩ := hcompared
  obtain ⟨n, hn⟩ := Option.isSome_iff_exists.mp hint
  rw [atMost_of_jsonInt hn]
  unfold CaseInterpreter.checkCaps at hcaps
  unfold capOf at hcap
  rcases hkey with ⟨hverb, rfl⟩ | ⟨hverb, hkey⟩ | ⟨hverb, rfl⟩
  · rw [hverb, if_pos rfl] at hcaps hcap
    cases hcap
    exact checkCap_eq_ok_iff.mp hcaps value hclaimed.get?_eq n hn
  · have hforeach : "retry".toList ≠ "foreach".toList := by decide
    rw [hverb, if_neg hforeach, if_pos rfl] at hcaps hcap
    cases hcap
    -- A retry compares a true value, and such a value is claimed as a bound.
    cases hclaimed with
    | bound _ hget htruthy =>
      exact checkCap_eq_ok_iff.mp hcaps value (retries_eq_some_of_compared hkey hget htruthy) n hn
    | seconds _ _ => simp at hkey
  · have hforeach : "wait".toList ≠ "foreach".toList := by decide
    have hretry : "wait".toList ≠ "retry".toList := by decide
    rw [hverb, if_neg hforeach, if_neg hretry, if_pos rfl] at hcaps hcap
    cases hcap
    exact checkCap_eq_ok_iff.mp hcaps value hclaimed.get?_eq n hn

/-- **The bounds of a step that a run gets past** are enforced exactly if those that `_check_caps` does
not compare are within the cap: a true value under another key than the one that it reads, or one that
is no integer. -/
theorem enforced_iff (hpast : interpreter.GetsPast case step) :
    interpreter.Enforced step ↔ interpreter.RestWithinCap step := by
  constructor
  · intro h cap hcap key value hclaimed _
    exact h cap hcap key value hclaimed
  · -- What is compared was found within the cap, and the rest is by assumption.
    intro h cap hcap key value hclaimed
    by_cases hcompared : interpreter.Compared step key value
    · exact atMost_of_compared hpast.checkCaps hcap hclaimed hcompared
    · exact h cap hcap key value hclaimed hcompared

end CaseInterpreter

/-- A loop with a maximum, which is a bound, and no limit. -/
def loopStep : CaseStep :=
  { deleteStep with
    action := "foreach"
    spec := .ofItems [("max", .int 10000)]
    action_ne := by decide }

/-- The case of this loop. -/
def loopCase : CaseDefinition :=
  { lookupCase with
    risk := .active
    steps := [loopStep]
    steps_ne := List.cons_ne_nil _ _ }

theorem getsPast_loopStep : plainInterpreter.GetsPast loopCase loopStep :=
  ⟨rfl, [], [], {}, rfl, rfl⟩

/-- The interpreter gets past the loop, whose maximum is not compared. -/
theorem loopStep_enforced_iff :
    plainInterpreter.GetsPast loopCase loopStep ∧
      (plainInterpreter.Enforced loopStep ↔ plainInterpreter.RestWithinCap loopStep) :=
  ⟨getsPast_loopStep, CaseInterpreter.enforced_iff getsPast_loopStep⟩

/-- A loop of ten thousand rounds is taken as bounded, and passes the look at its bound. -/
theorem unread_maximum_passes :
    ¬∀ case step, plainInterpreter.GetsPast case step → plainInterpreter.Enforced step := by
  intro h
  have hmaximum := h loopCase loopStep getsPast_loopStep foreachLimitCap rfl "max" (.int 10000)
    (.bound (by decide) rfl rfl)
  revert hmaximum
  show ¬(10000 : ℤ) ≤ 100
  decide

end SecOpent
