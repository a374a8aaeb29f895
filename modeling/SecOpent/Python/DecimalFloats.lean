import Mathlib.Data.Nat.Factorization.Basic
import SecOpent.Python.Floats

/-!
# Decimal fractions as floats

Floats that are written as decimal fractions, without an exponent and with as many places as are needed.
Their arithmetic is exact: a sum of a decimal fraction and an integer is a decimal fraction again.

## Main definitions

* `fractionText`: the text of an integer divided by a power of ten
* `decimalFloats`: the arithmetic of decimal fractions

## Main results

* `floatValue_fractionRepr`: the value of a fraction is read back
* `exact_decimalFloats`: the arithmetic is exact
-/

namespace Python

/-! ## Texts -/

/-- The digits of `n`, at least `places + 1` of them. -/
def paddedDigits (n places : ℕ) : Str :=
  List.replicate (places + 1 - (Nat.toDigits 10 n).length) '0' ++ Nat.toDigits 10 n

/-- `n / 10 ^ places`, with a point. -/
def fractionText (n : ℤ) (places : ℕ) : Str :=
  let digits := paddedDigits n.natAbs places
  (if n < 0 then ['-'] else []) ++
    digits.take (digits.length - places) ++ '.' :: digits.drop (digits.length - places)

theorem isDigit_of_mem_paddedDigits {n places : ℕ} {c : Char} (h : c ∈ paddedDigits n places) :
    c.isDigit = true := by
  rcases List.mem_append.mp h with h | h
  · rw [List.eq_of_mem_replicate h]
    rfl
  · exact Nat.isDigit_of_mem_toDigits (by decide) (by decide) h

theorem lt_length_paddedDigits (n places : ℕ) : places < (paddedDigits n places).length := by
  rw [paddedDigits, List.length_append, List.length_replicate]
  omega

theorem digitsValue_of_digits {s : Str} (h : ∀ c ∈ s, c.isDigit = true) :
    digitsValue s = Nat.ofDigitChars 10 s 0 := by
  rw [digitsValue, List.filter_eq_self.mpr h]
  exact Nat.ofDigitChars_eq_foldl.symm

theorem digitsValue_paddedDigits (n places : ℕ) : digitsValue (paddedDigits n places) = n := by
  rw [digitsValue_of_digits fun _ => isDigit_of_mem_paddedDigits, paddedDigits,
    Nat.ofDigitChars_append, Nat.ofDigitChars_replicate_zero, Nat.mul_zero,
    Nat.ofDigitChars_ten_toDigits]

theorem signedValue_signed {n : ℤ} {s : Str} (h : ∀ c ∈ s, c.isDigit = true)
    (hvalue : digitsValue s = n.natAbs) :
    signedValue ((if n < 0 then ['-'] else []) ++ s) = n := by
  split
  next hneg =>
    have hdigits : digitsValue ('-' :: s) = digitsValue s := rfl
    rw [signedValue, if_pos (by simp [startsWith]), List.singleton_append, hdigits, hvalue]
    omega
  next hpos =>
    -- A sign is no digit.
    have hstart : startsWith s ['-'] = false := by
      cases s with
      | nil => rfl
      | cons c s =>
        have hc : ('-' == c) = false := beq_false_of_ne fun heq => by
          cases heq ▸ h c List.mem_cons_self
        simp [startsWith, List.isPrefixOf, hc]
    rw [List.nil_append, signedValue, if_neg (by rw [hstart]; exact Bool.false_ne_true), hvalue]
    omega

/-- The float of a fraction. -/
def fractionRepr (n : ℤ) (places : ℕ) : FloatRepr where
  text := fractionText n places
  number := by
    intro c hc
    simp only [fractionText, List.mem_append, List.mem_cons] at hc
    have hdigit (h : c.isDigit = true) : isNumberChar c = true := by simp [isNumberChar, h]
    rcases hc with (hc | hc) | rfl | hc
    · split at hc
      · rw [List.mem_singleton.mp hc]
        rfl
      · cases hc
    · exact hdigit (isDigit_of_mem_paddedDigits (List.mem_of_mem_take hc))
    · rfl
    · exact hdigit (isDigit_of_mem_paddedDigits (List.mem_of_mem_drop hc))
  marked := .inl (by simp [fractionText])

/-- **The value of a fraction** is read back. -/
theorem floatValue_fractionRepr (n : ℤ) (places : ℕ) :
    floatValue (fractionRepr n places) = n / 10 ^ places := by
  have hlt := lt_length_paddedDigits n.natAbs places
  set digits := paddedDigits n.natAbs places with hdigits
  set whole := (if n < 0 then ['-'] else []) ++ digits.take (digits.length - places) with hwhole
  set fraction := digits.drop (digits.length - places) with hfraction
  have hall : ∀ c ∈ digits, c.isDigit = true := fun _ => isDigit_of_mem_paddedDigits
  have hfractionDigits : ∀ c ∈ fraction, c.isDigit = true :=
    fun c hc => hall c (List.mem_of_mem_drop hc)
  have hmem : ∀ c ∈ whole, c = '-' ∨ c.isDigit = true := by
    intro c hc
    rcases List.mem_append.mp hc with hc | hc
    · split at hc
      · exact .inl (List.mem_singleton.mp hc)
      · cases hc
    · exact .inr (hall c (List.mem_of_mem_take hc))
  have hpoint : '.' ∉ whole := fun h => by rcases hmem _ h with h | h <;> cases h
  have htext : (fractionRepr n places).text = whole ++ '.' :: fraction := rfl
  -- There is no exponent.
  have hmantissa : partition 'e' (whole ++ '.' :: fraction) = (whole ++ '.' :: fraction, []) := by
    refine partition_of_not_mem fun h => ?_
    rcases List.mem_append.mp h with h | h
    · rcases hmem _ h with h | h <;> cases h
    · rcases List.mem_cons.mp h with h | h
      · cases h
      · cases hfractionDigits _ h
  have hsigned : signedValue (whole ++ fraction) = n := by
    rw [hwhole, List.append_assoc, hfraction, List.take_append_drop]
    exact signedValue_signed hall (digitsValue_paddedDigits _ _)
  have hlength : fraction.length = places := by
    rw [hfraction, List.length_drop]
    omega
  rw [floatValue, htext, hmantissa]
  simp only [partition_append '.' hpoint, List.filter_eq_self.mpr hfractionDigits, hsigned, hlength]
  have hzero : signedValue [] = 0 := rfl
  rw [hzero, zero_sub, zpow_neg, zpow_natCast, div_eq_mul_inv]

/-! ## Fractions -/

/-- The value is a decimal fraction. -/
def IsFraction (q : ℚ) : Prop := ∃ places : ℕ, q.den ∣ 10 ^ places

/-- The least number of places, and at least one. -/
def placesOf (q : ℚ) : ℕ := ((List.range' 1 q.den).find? fun places => q.den ∣ 10 ^ places).getD 1

theorem dvd_ten_pow_self {d n : ℕ} (h : d ∣ 10 ^ n) : d ∣ 10 ^ d := by
  have hd : d ≠ 0 := ne_zero_of_dvd_ne_zero (by positivity) h
  -- A prime divides `d` less than `d` times, so `d` places are enough if any number is.
  rw [← Nat.factorization_prime_le_iff_dvd hd (by positivity)]
  intro p hp
  rw [Nat.factorization_pow, Finsupp.smul_apply, smul_eq_mul]
  by_cases hten : p ∣ 10
  · have hpos : 0 < (10 : ℕ).factorization p := hp.factorization_pos_of_dvd (by decide) hten
    exact (Nat.factorization_lt p hd).le.trans (Nat.le_mul_of_pos_right _ hpos)
  · rw [Nat.factorization_eq_zero_of_not_dvd fun hdvd => hten (hp.dvd_of_dvd_pow (hdvd.trans h))]
    exact Nat.zero_le _

theorem IsFraction.den_dvd {q : ℚ} (h : IsFraction q) : q.den ∣ 10 ^ placesOf q := by
  obtain ⟨n, hn⟩ := h
  cases hfind : (List.range' 1 q.den).find? fun places => q.den ∣ 10 ^ places with
  | none =>
    have hden := List.find?_eq_none.mp hfind q.den
      (List.mem_range'_1.mpr ⟨q.den_pos, by omega⟩)
    exact absurd (decide_eq_true (dvd_ten_pow_self hn)) hden
  | some places =>
    rw [placesOf, hfind]
    simpa using List.find?_some hfind

theorem isFraction_div (n : ℤ) (places : ℕ) : IsFraction (n / 10 ^ places) := by
  refine ⟨places, ?_⟩
  have hdvd := Rat.den_dvd n (10 ^ places)
  rw [Rat.divInt_eq_div] at hdvd
  exact_mod_cast hdvd

theorem IsFraction.add_int {q : ℚ} (h : IsFraction q) (n : ℤ) : IsFraction (q + n) := by
  obtain ⟨places, hdvd⟩ := h
  exact ⟨places, by rwa [Rat.add_intCast_den]⟩

theorem isFraction_mul_zpow (n exponent : ℤ) : IsFraction (n * 10 ^ exponent) := by
  cases exponent with
  | ofNat k =>
    have hint : (n : ℚ) * 10 ^ (Int.ofNat k) = ((n * 10 ^ k : ℤ) : ℚ) / 10 ^ 0 := by
      push_cast [Int.ofNat_eq_natCast, zpow_natCast]
      rw [pow_zero, div_one]
    exact hint ▸ isFraction_div _ 0
  | negSucc k =>
    rw [zpow_negSucc, ← div_eq_mul_inv]
    exact isFraction_div n (k + 1)

theorem isFraction_floatValue (v : FloatRepr) : IsFraction (floatValue v) := isFraction_mul_zpow _ _

/-- Decimal fractions, written as they are. -/
def decimalFloats : FloatArithmetic where
  value := floatValue
  round q := fractionRepr (q * 10 ^ placesOf q).num (placesOf q)

theorem value_round_decimalFloats {q : ℚ} (h : IsFraction q) :
    decimalFloats.value (decimalFloats.round q) = q := by
  -- With that many places the value is an integer, so nothing is cut off.
  obtain ⟨m, hm⟩ := h.den_dvd
  have hint : q * 10 ^ placesOf q = ((q.num * m : ℤ) : ℚ) := by
    have hpow : (10 : ℚ) ^ placesOf q = q.den * m := by exact_mod_cast hm
    rw [hpow, ← mul_assoc, Rat.mul_den_eq_num]
    push_cast
    rfl
  have hvalue : floatValue (fractionRepr (q * 10 ^ placesOf q).num (placesOf q)) =
      (q * 10 ^ placesOf q) / 10 ^ placesOf q := by
    rw [floatValue_fractionRepr, hint, Rat.num_intCast]
  exact hvalue.trans (mul_div_cancel_right₀ q (by positivity))

/-- **The arithmetic is exact.** -/
theorem exact_decimalFloats : decimalFloats.Exact where
  add v n := value_round_decimalFloats ((isFraction_floatValue v).add_int n)
  decimal n places := value_round_decimalFloats (isFraction_div n places)

end Python
