import Mathlib.Algebra.Order.Floor.Ring
import Mathlib.Data.Rat.Floor
import SecOpent.Python.Json

/-!
# Arithmetic of floats

A float has a value, and the value of an operation is rounded to a float. Where nothing is lost in the
rounding, what is computed is computed in rational arithmetic.

## Main definitions

* `floatValue`: the value of a `repr`
* `truncate`: `int`, of a float
* `FloatArithmetic`: the values of floats, and rounding
* `FloatArithmetic.Exact`: decimal fractions, and sums with integers, are not rounded

## Main results

* `truncate_sub_one_lt`, `lt_truncate_add_one`: a number shifted by one is not truncated back
-/

namespace Python

/-! ## Values -/

/-- The digits of a text as a number, other characters left out. -/
def digitsValue (text : Str) : ℕ :=
  (text.filter Char.isDigit).foldl (fun n c => 10 * n + (c.toNat - '0'.toNat)) 0

/-- A text of digits, with a sign or not. -/
def signedValue (text : Str) : ℤ :=
  if startsWith text ['-'] then -digitsValue text else digitsValue text

/-- The value of a float, read off its `repr`: the digits before the exponent, and as many places less
as there are digits behind the point. -/
def floatValue (value : FloatRepr) : ℚ :=
  let (mantissa, exponent) := partition 'e' value.text
  let (whole, places) := partition '.' mantissa
  let places := places.filter Char.isDigit
  (signedValue (whole ++ places) : ℚ) * 10 ^ (signedValue exponent - places.length)

/-- `int`, of a float: towards zero. -/
def truncate (q : ℚ) : ℤ := if q < 0 then ⌈q⌉ else ⌊q⌋

theorem truncate_sub_one_lt (q : ℚ) : (truncate (q - 1) : ℚ) < q := by
  unfold truncate
  split
  · linarith [Int.ceil_lt_add_one (q - 1)]
  · linarith [Int.floor_le (q - 1)]

theorem lt_truncate_add_one (q : ℚ) : q < (truncate (q + 1) : ℚ) := by
  unfold truncate
  split
  · linarith [Int.le_ceil (q + 1)]
  · linarith [Int.lt_floor_add_one (q + 1)]

theorem truncate_intCast (n : ℤ) : truncate n = n := by
  unfold truncate
  split
  · exact Int.ceil_intCast n
  · exact Int.floor_intCast n

/-! ## Arithmetic -/

/-- The values of the floats, and the float that a value is rounded to. -/
structure FloatArithmetic where
  value : FloatRepr → ℚ
  round : ℚ → FloatRepr

namespace FloatArithmetic

variable (F : FloatArithmetic)

/-- `v + n`. -/
def add (v : FloatRepr) (n : ℤ) : FloatRepr := F.round (F.value v + n)

/-- `float.is_integer`. -/
def isInteger (v : FloatRepr) : Bool := (F.value v).isInt

/-- The value of an integer or a float. -/
def number : Json → Option ℚ
  | .int n => some n
  | .float v => some (F.value v)
  | _ => none

/-- Nothing is lost when a decimal fraction is read, or an integer is added. -/
structure Exact (F : FloatArithmetic) : Prop where
  add : ∀ v n, F.value (F.add v n) = F.value v + n
  decimal : ∀ (n : ℤ) (places : ℕ), F.value (F.round (n / 10 ^ places)) = n / 10 ^ places

variable {F} {v : FloatRepr}

theorem truncate_of_isInteger (h : F.isInteger v = true) : (truncate (F.value v) : ℚ) = F.value v := by
  have hnum : ((F.value v).num : ℚ) = F.value v :=
    (Rat.den_eq_one_iff _).mp (by simpa [isInteger, Rat.isInt] using h)
  rw [← hnum, truncate_intCast]

end FloatArithmetic

end Python
