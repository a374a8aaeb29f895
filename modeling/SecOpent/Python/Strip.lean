import SecOpent.Python.Text

/-!
# Stripping

`str.strip` and its two halves on texts that are put together from parts: stripping stops at a character
that stays, and commutes with a map that keeps the characters that go.

## Main results

* `strip_around`: a text around a character that stays
* `rstrip_rstrip`, `lstrip_lstrip`: stripping twice
* `strip_map_toLower`: stripping and lower case
-/

namespace Python

variable {p : Char → Bool} {c : Char} {a b s : Str}

theorem lstrip_append (hc : p c = false) : lstrip p (a ++ c :: b) = lstrip p a ++ c :: b := by
  induction a with
  | nil => simp [lstrip, hc]
  | cons d a ih =>
    rw [List.cons_append, lstrip, lstrip, List.dropWhile_cons, List.dropWhile_cons]
    split
    · exact ih
    · rfl

theorem rstrip_eq_reverse (p : Char → Bool) (s : Str) :
    rstrip p s = (lstrip p s.reverse).reverse := rfl

theorem rstrip_append (hc : p c = false) : rstrip p (a ++ c :: b) = a ++ c :: rstrip p b := by
  rw [rstrip_eq_reverse, rstrip_eq_reverse, List.reverse_append, List.reverse_cons,
    List.append_assoc, List.singleton_append, lstrip_append hc, List.reverse_append,
    List.reverse_cons, List.reverse_reverse, List.append_assoc, List.singleton_append]

/-- Stripping a text around a character that is not blank. -/
theorem strip_around (hc : isSpace c = false) :
    strip (a ++ c :: b) = lstrip isSpace a ++ c :: rstrip isSpace b := by
  rw [strip, lstrip_append hc, rstrip_append hc]

theorem lstrip_map {f : Char → Char} (hf : ∀ c, p (f c) = p c) (s : Str) :
    lstrip p (s.map f) = (lstrip p s).map f := by
  rw [lstrip, lstrip, List.dropWhile_map]
  congr 2
  funext c
  exact hf c

theorem rstrip_map {f : Char → Char} (hf : ∀ c, p (f c) = p c) (s : Str) :
    rstrip p (s.map f) = (rstrip p s).map f := by
  rw [rstrip_eq_reverse, rstrip_eq_reverse, ← List.map_reverse, lstrip_map hf, List.map_reverse]

theorem rstrip_rstrip (p : Char → Bool) (s : Str) : rstrip p (rstrip p s) = rstrip p s :=
  List.rdropWhile_idempotent _ _

theorem lstrip_lstrip (p : Char → Bool) (s : Str) : lstrip p (lstrip p s) = lstrip p s :=
  List.dropWhile_idempotent p s

/-- The text without the characters at its end, which are all stripped. -/
theorem rstrip_append_of_all (hb : ∀ c ∈ b, p c = true) : rstrip p (a ++ b) = rstrip p a := by
  rw [rstrip_eq_reverse, rstrip_eq_reverse, List.reverse_append, lstrip,
    List.dropWhile_append_of_pos (by simpa using hb), lstrip]

/-- A text is what is left of it and what is stripped at its end. -/
theorem exists_rstrip (p : Char → Bool) (s : Str) :
    ∃ t, s = rstrip p s ++ t ∧ ∀ c ∈ t, p c = true :=
  ⟨s.rtakeWhile p, List.rdropWhile_append_rtakeWhile.symm,
    fun _ hc => List.mem_rtakeWhile_imp hc⟩

/-- A text that does not end in a character to strip is left as it is. -/
theorem rstrip_of_last (h : p c = false) : rstrip p (a ++ [c]) = a ++ [c] :=
  rstrip_append h

theorem lstrip_subset (p : Char → Bool) (s : Str) : lstrip p s ⊆ s := List.dropWhile_subset _

theorem rstrip_subset (p : Char → Bool) (s : Str) : rstrip p s ⊆ s :=
  (List.rdropWhile_prefix _ _).subset

theorem length_lstrip_le (p : Char → Bool) (s : Str) : (lstrip p s).length ≤ s.length :=
  (List.dropWhile_suffix _).length_le

theorem length_rstrip_le (p : Char → Bool) (s : Str) : (rstrip p s).length ≤ s.length :=
  (List.rdropWhile_prefix _ _).length_le

/-- Characters to keep at the start keep their place when the end is stripped. -/
theorem lstrip_rstrip (p : Char → Bool) (s : Str) :
    lstrip p (rstrip p s) = rstrip p (lstrip p s) := by
  by_cases hall : ∀ c ∈ s, p c = true
  · have hnil : rstrip p s = [] := List.rdropWhile_eq_nil_iff.mpr hall
    have hnil' : lstrip p s = [] := List.dropWhile_eq_nil_iff.mpr hall
    rw [hnil, hnil']
    rfl
  · obtain ⟨c, hmem, hc⟩ : ∃ c ∈ s, p c = false := by simpa using hall
    obtain ⟨a, b, rfl⟩ := List.append_of_mem hmem
    rw [rstrip_append hc, lstrip_append hc, lstrip_append hc, rstrip_append hc]

theorem strip_rstrip (s : Str) : strip (rstrip isSpace s) = strip s := by
  rw [strip, strip, lstrip_rstrip, rstrip_rstrip]

theorem strip_lstrip (s : Str) : strip (lstrip isSpace s) = strip s := by
  rw [strip, strip, lstrip_lstrip]

/-- Less text, less left of it. -/
theorem length_lstrip_append_le (p : Char → Bool) (a b : Str) :
    (lstrip p a).length ≤ (lstrip p (a ++ b)).length := by
  rw [lstrip, lstrip, List.dropWhile_append]
  split
  next hempty =>
    rw [List.isEmpty_iff.mp hempty]
    exact Nat.zero_le _
  next =>
    rw [List.length_append]
    exact Nat.le_add_right _ _

/-- What is stripped has no blank at its end. -/
theorem rstrip_strip (s : Str) : rstrip isSpace (strip s) = strip s := rstrip_rstrip _ _

/-- What is stripped has no blank at its start. -/
theorem lstrip_strip (s : Str) : lstrip isSpace (strip s) = strip s := by
  rw [strip, lstrip_rstrip, lstrip_lstrip]

theorem strip_eq_self_iff :
    strip s = s ↔ lstrip isSpace s = s ∧ rstrip isSpace s = s := by
  constructor
  · intro h
    exact ⟨h ▸ lstrip_strip s, h ▸ rstrip_strip s⟩
  · rintro ⟨hl, hr⟩
    rw [strip, hl, hr]

/-! ## Lower case -/

/-- Lower case changes ASCII letters only. -/
theorem toLower_of_not_ascii {c : Char} (h : 128 ≤ c.toNat) : c.toLower = c := by
  refine dif_neg fun hletter => ?_
  have hle : c.toNat ≤ 'Z'.toNat := UInt32.le_iff_toNat_le.mp hletter.2
  exact absurd (h.trans hle) (by decide)

theorem isSpace_toLower (c : Char) : isSpace c.toLower = isSpace c := by
  by_cases h : 128 ≤ c.toNat
  · rw [toLower_of_not_ascii h]
  · have hall : ∀ n < 128, isSpace (Char.ofNat n).toLower = isSpace (Char.ofNat n) := by decide
    simpa only [Char.ofNat_toNat] using hall c.toNat (not_le.mp h)

theorem strip_map_toLower (s : Str) : strip (s.map Char.toLower) = (strip s).map Char.toLower := by
  rw [strip, strip, lstrip_map isSpace_toLower, rstrip_map isSpace_toLower]

end Python
