import SecOpent.Cases.LogicStrategies
import SecOpent.Python.DecimalFloats

/-!
# Probes that violate

A boundary test moves a bound by one to the outside, and truncates the result for an integer field:
it is not truncated back into the range. A test of an invariant takes the bound itself where the
operator is strict, and a number next to it otherwise. In exact arithmetic each value is one that it
has to be.

## Main definitions

* `BeyondBound`: a value is below the lower or above the upper bound, as its label says
* `BreaksInvariant`: a value does not satisfy a parsed invariant

## Main results

* `beyondBound_of_mem`: the values of a boundary test
* `not_holds_violatingValue`: the value of a test of an invariant
* `probes_violate`: every case of both strategies
-/

namespace SecOpent

open Python

section Violates

variable (U : Unicode) (F : FloatArithmetic)

/-- The value is strictly outside the range of the field, on the side that the label names. -/
def BeyondBound (field : AppModel.Field) (label : String) (value : Json) : Prop :=
  ∃ low high, field.range = some (low, high) ∧ ∃ q, F.number value = some q ∧
    (label = "below_low" ∧ (∃ bound, F.number low = some bound ∧ q < bound) ∨
      label = "above_high" ∧ ∃ bound, F.number high = some bound ∧ bound < q)

/-- The value does not satisfy the parsed invariant. -/
def BreaksInvariant (expr : String) (name : String) (value : Json) : Prop :=
  ∃ lhs op number, matchInvariant U expr = some (lhs, op, number) ∧
    name = String.ofList (rpartition '.' lhs).2 ∧
    ∃ q, F.number value = some q ∧ ¬op.Holds q (decimalValue U number)

variable {U F}

/-- A bound that is moved down is below itself, truncated or not. -/
theorem boundaryProbe_below (hexact : F.Exact) {isInt : Bool} {low value : Json}
    (h : boundaryProbe F isInt (-1) low = some value) :
    ∃ bound q, F.number low = some bound ∧ F.number value = some q ∧ q < bound := by
  cases low with
  | int bound =>
    cases h
    exact ⟨bound, (bound + -1 : ℤ), rfl, rfl, by push_cast; linarith⟩
  | float bound =>
    have hmoved : F.value (F.add bound (-1)) = F.value bound - 1 := by
      rw [hexact.add]
      push_cast
      ring
    cases isInt with
    | true =>
      cases h
      refine ⟨F.value bound, _, rfl, rfl, ?_⟩
      rw [hmoved]
      exact truncate_sub_one_lt _
    | false =>
      cases h
      refine ⟨F.value bound, _, rfl, rfl, ?_⟩
      rw [hmoved]
      exact sub_one_lt _
  | _ => cases h

/-- A bound that is moved up is above itself, truncated or not. -/
theorem boundaryProbe_above (hexact : F.Exact) {isInt : Bool} {high value : Json}
    (h : boundaryProbe F isInt 1 high = some value) :
    ∃ bound q, F.number high = some bound ∧ F.number value = some q ∧ bound < q := by
  cases high with
  | int bound =>
    cases h
    exact ⟨bound, (bound + 1 : ℤ), rfl, rfl, by push_cast; linarith⟩
  | float bound =>
    have hmoved : F.value (F.add bound 1) = F.value bound + 1 := by
      rw [hexact.add, Int.cast_one]
    cases isInt with
    | true =>
      cases h
      refine ⟨F.value bound, _, rfl, rfl, ?_⟩
      rw [hmoved]
      exact lt_truncate_add_one _
    | false =>
      cases h
      refine ⟨F.value bound, _, rfl, rfl, ?_⟩
      rw [hmoved]
      exact lt_add_one _
  | _ => cases h

/-- **The values of a boundary test** are outside the range. -/
theorem beyondBound_of_mem (hexact : F.Exact) {field : AppModel.Field} {label : String} {value : Json}
    (h : (label, value) ∈ boundaryValues U F field) : BeyondBound F field label value := by
  unfold boundaryValues at h
  cases hrange : field.range with
  | none =>
    rw [hrange] at h
    cases h
  | some range =>
    obtain ⟨low, high⟩ := range
    rw [hrange] at h
    simp only [List.mem_append, Option.mem_toList, Option.map_eq_some_iff, Prod.mk.injEq] at h
    rcases h with ⟨below, hbelow, rfl, rfl⟩ | ⟨above, habove, rfl, rfl⟩
    · obtain ⟨bound, q, hbound, hq, hlt⟩ := boundaryProbe_below hexact hbelow
      exact ⟨low, high, hrange, q, hq, .inl ⟨rfl, bound, hbound, hlt⟩⟩
    · obtain ⟨bound, q, hbound, hq, hlt⟩ := boundaryProbe_above hexact habove
      exact ⟨low, high, hrange, q, hq, .inr ⟨rfl, bound, hbound, hlt⟩⟩

/-- A number of the third group is read exactly. -/
theorem value_round_decimalValue (hexact : F.Exact) (number : Str) :
    F.value (F.round (decimalValue U number)) = decimalValue U number :=
  hexact.decimal _ _

/-- **The value of a test of an invariant** does not satisfy it. -/
theorem not_holds_violatingValue (hexact : F.Exact) (op : Comparison) (bound : FloatRepr)
    (field : Option AppModel.Field) :
    ∃ q, F.number (violatingValue U F op bound field) = some q ∧ ¬op.Holds q (F.value bound) := by
  -- As an integer or as a float, it is the same number.
  have hnum : ∀ v : FloatRepr, F.number
      (if field.any (isIntField U) && F.isInteger v then .int (truncate (F.value v)) else .float v) =
        some (F.value v) := by
    intro v
    split
    next h =>
      have hinteger := ((Bool.and_eq_true _ _).mp h).2
      exact congrArg some (FloatArithmetic.truncate_of_isInteger hinteger)
    next => rfl
  -- Strict comparisons fail on the bound itself, the others next to it.
  cases op with
  | ge =>
    refine ⟨_, hnum _, ?_⟩
    rw [hexact.add]
    simp [Comparison.Holds]
  | gt => exact ⟨_, hnum _, lt_irrefl _⟩
  | le =>
    refine ⟨_, hnum _, ?_⟩
    rw [hexact.add]
    simp [Comparison.Holds]
  | lt => exact ⟨_, hnum _, lt_irrefl _⟩
  | eq =>
    refine ⟨_, hnum _, ?_⟩
    rw [hexact.add]
    simp [Comparison.Holds]

end Violates

/-- **Every probe violates**: in exact arithmetic, a case of a boundary test sets a field to a value
that is strictly outside its range, on the side of its label, and a case of an invariant sets a
field to a value that does not satisfy the parsed invariant. -/
theorem probes_violate (U : Unicode) (repr : Json → Except String Str) (H : Sha256)
    {F : FloatArithmetic} (hexact : F.Exact) (model : AppModel) :
    (∀ cases, (schemathesisStrategy U repr F H).generate model = .ok cases → ∀ case ∈ cases,
      ∃ field ∈ model.fields, ∃ label value, case.target = boundaryTarget field label ∧
        case.inputs = [(field.name, value)] ∧ BeyondBound F field label value) ∧
    ∀ cases, (invariantStrategy U repr F H).generate model = .ok cases → ∀ case ∈ cases,
      ∃ inv ∈ model.invariants, ∃ name value, case.target = inv.id ∧
        case.inputs = [(name, value)] ∧ BreaksInvariant U F inv.expr name value := by
  constructor
  · intro cases hcases case hcase
    obtain ⟨-, htests⟩ := spec_of_mapM hcases fun _ _ => boundaryCase_eq_ok
    have htest := htests ▸ List.mem_map_of_mem (f := LogicTestCase.test) hcase
    obtain ⟨⟨field, label, value⟩, hprobe, heq⟩ := List.mem_map.mp htest
    obtain ⟨field, hfield, hprobe⟩ := List.mem_flatMap.mp hprobe
    obtain ⟨_, hvalue, hfield'⟩ := List.mem_map.mp hprobe
    cases hfield'
    exact ⟨field, hfield, label, value, (congrArg LogicTest.target heq).symm,
      (congrArg LogicTest.inputs heq).symm, beyondBound_of_mem hexact hvalue⟩
  · intro cases hcases case hcase
    obtain ⟨-, htests⟩ := spec_of_mapM hcases fun _ _ => violationCase_eq_ok
    have htest := htests ▸ List.mem_map_of_mem (f := LogicTestCase.test) hcase
    obtain ⟨⟨inv, name, value⟩, hviolation, heq⟩ := List.mem_map.mp htest
    obtain ⟨inv, hinv, hviolation⟩ := List.mem_filterMap.mp hviolation
    -- Only an invariant that the pattern finds has a case.
    obtain ⟨⟨lhs, op, number⟩, hmatch, hfound⟩ := Option.map_eq_some_iff.mp hviolation
    cases hfound
    obtain ⟨q, hq, hbreaks⟩ := not_holds_violatingValue (U := U) hexact op
      (F.round (decimalValue U number)) _
    rw [value_round_decimalValue hexact] at hbreaks
    exact ⟨inv, hinv, _, _, (congrArg LogicTest.target heq).symm,
      (congrArg LogicTest.inputs heq).symm, lhs, op, number, hmatch, rfl, q, hq, hbreaks⟩

/-- A weight from a half on. -/
def halfField : AppModel.Field where
  name := "weight"
  type := "INT"
  range := some (.float (fractionRepr 5 1), .int 100)
  name_ne := by decide
  type_ne := by decide

/-- A model with a field and an invariant. -/
def probedModel : AppModel where
  appId := "kiosk"
  version := "0.2.0"
  invariants := [⟨"i1", "cart.total >= 0", by decide, by decide⟩]
  fields := [halfField]
  digest := "sha256:f2"
  appId_ne := by decide
  version_ne := by decide
  digest_ne := by decide

theorem probes_violate_half :
    (∀ cases, (schemathesisStrategy .ascii (fun value => .ok value.render) decimalFloats
        codeDigest).generate probedModel = .ok cases → ∀ case ∈ cases,
      ∃ field ∈ probedModel.fields, ∃ label value, case.target = boundaryTarget field label ∧
        case.inputs = [(field.name, value)] ∧ BeyondBound decimalFloats field label value) ∧
    ∀ cases, (invariantStrategy .ascii (fun value => .ok value.render) decimalFloats
        codeDigest).generate probedModel = .ok cases → ∀ case ∈ cases,
      ∃ inv ∈ probedModel.invariants, ∃ name value, case.target = inv.id ∧
        case.inputs = [(name, value)] ∧ BreaksInvariant .ascii decimalFloats inv.expr name value :=
  probes_violate .ascii _ codeDigest exact_decimalFloats probedModel

/-- The pattern finds the parts of an invariant. -/
example : matchInvariant .ascii "cart.total >= 0" =
    some ("cart.total".toList, .ge, ['0']) := by decide +kernel

end SecOpent
