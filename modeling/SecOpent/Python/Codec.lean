import SecOpent.Python.Strip

/-!
# The IDNA codec

Lower case and the IDNA codec on text that is not ASCII are given by tables. What the tables of CPython
have in common is stated here: lower case works character by character at an ASCII start, and the codec
answers with ASCII text, in labels of at most 63 characters, in lower case if its input is.

## Main definitions

* `Unicode.Lawful`: the tables do so
* `IsLower`, `HasLabels`: text without upper case, and text that the codec keeps

## Main results

* `encodeIdna_of_hasLabels`: ASCII text with proper labels is kept
* `isAscii_encodeIdna`, `isLower_encodeIdna`, `length_encodeIdna`: what the codec answers with
-/

namespace Python

/-- What the tables of CPython do. -/
structure Unicode.Lawful (U : Unicode) : Prop where
  /-- `str.lower` maps the ASCII characters at the start of a text one by one. -/
  lower_prefix : ∀ start rest : Str, isAscii start = true →
    start.map Char.toLower <+: U.lower (start ++ rest)
  /-- `str.lower` leaves no upper case letter of ASCII. -/
  lower_not_upper : ∀ s, ∀ c ∈ U.lower s, c.isUpper = false
  /-- The codec answers with ASCII bytes. -/
  idna_ascii : ∀ s t, U.idna s = some t → isAscii t = true
  /-- The codec refuses labels of 64 characters or more. -/
  idna_labels : ∀ s t, U.idna s = some t → ∀ label ∈ t.splitOn '.', label.length < 64
  /-- The codec makes no upper case letter: `nameprep` folds the case, and so does Punycode. -/
  idna_not_upper : ∀ s t, U.idna s = some t → (∀ c ∈ s, c.isUpper = false) →
    ∀ c ∈ t, c.isUpper = false
  /-- NFKC keeps ASCII characters. -/
  nfkc_ascii : ∀ c : Char, c.toNat < 128 → U.nfkc [c] = [c]
  /-- A slash that NFKC makes of a character is there in every text with that character. -/
  nfkc_slash : ∀ s, ∀ c ∈ s, '/' ∈ U.nfkc [c] → '/' ∈ U.nfkc s
  /-- `str.lower` makes no character of which NFKC makes a slash. -/
  lower_slash : ∀ s, ∀ c ∈ U.lower s, '/' ∈ U.nfkc [c] → ∃ d ∈ s, '/' ∈ U.nfkc [d]
  /-- The codec makes a slash only where NFKC does. -/
  idna_slash : ∀ s t, U.idna s = some t → '/' ∈ t → ∃ c ∈ s, '/' ∈ U.nfkc [c]

/-- Tables that change ASCII letters only, and refuse other text in domains. -/
def Unicode.lowering : Unicode :=
  ⟨List.map Char.toLower, fun _ => none, fun _ => false, id, fun _ => none, fun _ => false⟩

/-- Text without upper case letters of ASCII. -/
def IsLower (s : Str) : Prop := ∀ c ∈ s, c.isUpper = false

/-- Text with a character of which NFKC makes a slash. -/
def HasSlash (U : Unicode) (s : Str) : Prop := ∃ c ∈ s, '/' ∈ U.nfkc [c]

/-- Text whose labels have 1 to 63 characters. -/
def HasLabels (s : Str) : Prop := ∀ label ∈ s.splitOn '.', label ≠ [] ∧ label.length < 64

variable {U : Unicode} {s t : Str}

/-! ## Lower case -/

theorem toLower_of_not_upper {c : Char} (h : c.isUpper = false) : c.toLower = c := by
  refine dif_neg fun hletter => ?_
  have hupper : c.isUpper = true := decide_eq_true hletter
  rw [h] at hupper
  cases hupper

theorem lt_of_isUpper {c : Char} (h : c.isUpper = true) : c.toNat < 128 := by
  have hrange : c.val ≥ 'A'.val ∧ c.val ≤ 'Z'.val := of_decide_eq_true h
  exact lt_of_le_of_lt (UInt32.le_iff_toNat_le.mp hrange.2) (by decide)

theorem isUpper_toLower (c : Char) : c.toLower.isUpper = false := by
  by_cases hupper : c.isUpper = true
  · have hlt := lt_of_isUpper hupper
    have hall : ∀ n < 128, (Char.ofNat n).toLower.isUpper = false := by decide
    simpa only [Char.ofNat_toNat] using hall c.toNat hlt
  · rw [Bool.not_eq_true] at hupper
    rw [toLower_of_not_upper hupper, hupper]

theorem toLower_toLower (c : Char) : c.toLower.toLower = c.toLower :=
  toLower_of_not_upper (isUpper_toLower c)

/-- A character whose lower case is no letter is that character. -/
theorem eq_of_toLower {c d : Char} (h : c.toLower = d) (hd : d.isLower = false) : c = d := by
  by_cases hupper : c.isUpper = true
  · have hlt := lt_of_isUpper hupper
    have hall : ∀ n < 128, (Char.ofNat n).isUpper = true → (Char.ofNat n).toLower.isLower = true := by
      decide
    have hletter := hall c.toNat hlt (by rwa [Char.ofNat_toNat])
    rw [Char.ofNat_toNat, h, hd] at hletter
    cases hletter
  · rw [Bool.not_eq_true] at hupper
    rw [← h, toLower_of_not_upper hupper]

theorem isAscii_map_toLower (h : isAscii s = true) : isAscii (s.map Char.toLower) = true := by
  have hall : ∀ n < 128, (Char.ofNat n).toLower.toNat < 128 := by decide
  simp only [isAscii, List.all_eq_true, decide_eq_true_eq] at h ⊢
  intro c hc
  obtain ⟨d, hd, rfl⟩ := List.mem_map.mp hc
  simpa only [Char.ofNat_toNat] using hall d.toNat (h d hd)

theorem map_toLower_of_isLower (h : IsLower s) : s.map Char.toLower = s :=
  (List.map_congr_left fun c hc => toLower_of_not_upper (h c hc)).trans (List.map_id s)

theorem isLower_map_toLower (s : Str) : IsLower (s.map Char.toLower) := by
  intro c hc
  obtain ⟨d, -, rfl⟩ := List.mem_map.mp hc
  exact isUpper_toLower d

theorem isLower_lower (hU : U.Lawful) (s : Str) : IsLower (lower U s) := by
  unfold lower
  split
  · exact isLower_map_toLower s
  · exact hU.lower_not_upper s

theorem lower_eq_self (hascii : isAscii s = true) (h : IsLower s) : lower U s = s := by
  rw [lower, if_pos hascii, map_toLower_of_isLower h]

/-- Lower case keeps an ASCII start in lower case. -/
theorem prefix_lower (hU : U.Lawful) {start : Str} (hascii : isAscii start = true) (rest : Str) :
    start.map Char.toLower <+: lower U (start ++ rest) := by
  unfold lower
  split
  · rw [List.map_append]
    exact List.prefix_append _ _
  · exact hU.lower_prefix start rest hascii

/-! ## The codec -/

theorem length_lt_of_encodable (h : (s.splitOn '.').dropLast.all
      (fun label => 0 < label.length && label.length < 64) = true)
    (hlast : (s.splitOn '.').getLast?.all (fun label => label.length < 64) = true) :
    ∀ label ∈ s.splitOn '.', label.length < 64 := by
  intro label hlabel
  have hne : s.splitOn '.' ≠ [] := List.splitOn_ne_nil '.' s
  rw [← List.dropLast_append_getLast hne] at hlabel
  rcases List.mem_append.mp hlabel with hlabel | hlabel
  · have hinner := List.all_eq_true.mp h label hlabel
    simp only [Bool.and_eq_true, decide_eq_true_eq] at hinner
    exact hinner.2
  · rw [List.getLast?_eq_some_getLast hne, Option.all_some, decide_eq_true_eq] at hlast
    rw [List.mem_singleton.mp hlabel]
    exact hlast

/-- On ASCII text the codec gives the text back. -/
theorem encodeIdna_of_ascii (hascii : isAscii s = true) (h : encodeIdna U s = some t) : t = s := by
  unfold encodeIdna at h
  split at h
  next hempty =>
    rw [List.isEmpty_iff.mp hempty]
    exact (Option.some.inj h).symm
  next =>
    dsimp only at h
    split at h
    · exact (Option.some.inj h).symm
    · cases h

theorem encodeIdna_of_not_ascii (hascii : isAscii s ≠ true) : encodeIdna U s = U.idna s := by
  have hne : s.isEmpty = false := by
    cases s with
    | nil => exact absurd rfl hascii
    | cons c s => rfl
  simp [encodeIdna, hne, hascii]

theorem isAscii_encodeIdna (hU : U.Lawful) (h : encodeIdna U s = some t) : isAscii t = true := by
  by_cases hascii : isAscii s = true
  · rw [encodeIdna_of_ascii hascii h]
    exact hascii
  · rw [encodeIdna_of_not_ascii hascii] at h
    exact hU.idna_ascii s t h

theorem isLower_encodeIdna (hU : U.Lawful) (hs : IsLower s) (h : encodeIdna U s = some t) :
    IsLower t := by
  by_cases hascii : isAscii s = true
  · rw [encodeIdna_of_ascii hascii h]
    exact hs
  · rw [encodeIdna_of_not_ascii hascii] at h
    exact hU.idna_not_upper s t h hs

theorem length_encodeIdna (hU : U.Lawful) (h : encodeIdna U s = some t) :
    ∀ label ∈ t.splitOn '.', label.length < 64 := by
  by_cases hascii : isAscii s = true
  · obtain rfl := encodeIdna_of_ascii hascii h
    unfold encodeIdna at h
    split at h
    next hempty =>
      rw [List.isEmpty_iff.mp hempty]
      decide
    next =>
      dsimp only at h
      split at h
      next hlabels =>
        rw [Bool.and_eq_true] at hlabels
        exact length_lt_of_encodable hlabels.1 hlabels.2
      next => cases h
  · rw [encodeIdna_of_not_ascii hascii] at h
    exact hU.idna_labels s t h

theorem HasLabels.ne_nil (h : HasLabels s) : s ≠ [] := by
  rintro rfl
  exact (h [] (by simp)).1 rfl

/-- **ASCII text with proper labels is kept.** -/
theorem encodeIdna_of_hasLabels (hascii : isAscii s = true) (h : HasLabels s) :
    encodeIdna U s = some s := by
  have hinner : (s.splitOn '.').dropLast.all
      (fun label => 0 < label.length && label.length < 64) = true := by
    rw [List.all_eq_true]
    intro label hlabel
    obtain ⟨hne, hlt⟩ := h label (List.dropLast_subset _ hlabel)
    simp [hlt, List.length_pos_iff, hne]
  have hlast : (s.splitOn '.').getLast?.all (fun label => label.length < 64) = true := by
    cases hget : (s.splitOn '.').getLast? with
    | none => rfl
    | some label => simpa using (h label (List.mem_of_getLast? hget)).2
  have hempty : s.isEmpty = false := by simpa using h.ne_nil
  simp only [encodeIdna, hempty, hascii, hinner, hlast, Bool.and_self, if_true, Bool.false_eq_true,
    if_false]

theorem HasLabels.none_empty (h : HasLabels s) :
    (s.isEmpty || (s.splitOn '.').any List.isEmpty) = false := by
  rw [Bool.or_eq_false_iff, List.any_eq_false]
  refine ⟨by simpa using h.ne_nil, fun label hlabel => ?_⟩
  simpa using (h label hlabel).1

/-- Text with proper labels does not end with a dot. -/
theorem rstrip_dot_of_hasLabels (h : HasLabels s) : rstrip (· == '.') s = s := by
  rw [rstrip, List.rdropWhile_eq_self_iff]
  intro hne hdot
  have hlast : s = s.dropLast ++ '.' :: [] := by
    conv_lhs => rw [← List.dropLast_append_getLast hne]
    simpa using hdot
  have hempty : [] ∈ s.splitOn '.' := by
    rw [hlast, List.splitOn_append_cons_self]
    simp
  exact (h [] hempty).1 rfl

/-! ## Slashes -/

theorem HasSlash.mono (h : HasSlash U s) (hsub : s ⊆ t) : HasSlash U t := by
  obtain ⟨c, hc, hslash⟩ := h
  exact ⟨c, hsub hc, hslash⟩

theorem hasSlash_of_mem (hU : U.Lawful) (h : '/' ∈ s) : HasSlash U s := by
  refine ⟨'/', h, ?_⟩
  rw [hU.nfkc_ascii '/' (by decide)]
  exact List.mem_singleton_self '/'

/-- In ASCII text only a slash is one. -/
theorem slash_mem_of_ascii (hU : U.Lawful) (hascii : isAscii s = true) (h : HasSlash U s) :
    '/' ∈ s := by
  obtain ⟨c, hc, hslash⟩ := h
  rw [isAscii, List.all_eq_true] at hascii
  have hlt : c.toNat < 128 := by simpa using hascii c hc
  rw [hU.nfkc_ascii c hlt] at hslash
  rwa [List.mem_singleton.mp hslash]

/-- Lower case makes no slash. -/
theorem hasSlash_of_lower (hU : U.Lawful) (h : HasSlash U (lower U s)) : HasSlash U s := by
  by_cases hascii : isAscii s = true
  · rw [lower, if_pos hascii] at h
    have hmem := slash_mem_of_ascii hU (isAscii_map_toLower hascii) h
    obtain ⟨d, hd, hlower⟩ := List.mem_map.mp hmem
    obtain rfl := eq_of_toLower hlower (by decide)
    exact hasSlash_of_mem hU hd
  · rw [lower, if_neg hascii] at h
    obtain ⟨c, hc, hslash⟩ := h
    exact hU.lower_slash s c hc hslash

/-- Nor does the codec. -/
theorem hasSlash_of_encodeIdna (hU : U.Lawful) (h : encodeIdna U s = some t) (hmem : '/' ∈ t) :
    HasSlash U s := by
  by_cases hascii : isAscii s = true
  · rw [encodeIdna_of_ascii hascii h] at hmem
    exact hasSlash_of_mem hU hmem
  · rw [encodeIdna_of_not_ascii hascii] at h
    exact hU.idna_slash s t h hmem

theorem lawful_lowering : Unicode.lowering.Lawful where
  lower_prefix start rest _ := by
    show start.map Char.toLower <+: (start ++ rest).map Char.toLower
    rw [List.map_append]
    exact List.prefix_append _ _
  lower_not_upper s := isLower_map_toLower s
  idna_ascii s t h := by cases h
  idna_labels s t h := by cases h
  idna_not_upper s t h := by cases h
  nfkc_ascii c _ := rfl
  nfkc_slash s c hc h := by
    rw [List.mem_singleton.mp h]
    exact hc
  lower_slash s c hc h := by
    obtain ⟨d, hd, hlower⟩ := List.mem_map.mp hc
    rw [← List.mem_singleton.mp h] at hlower
    obtain rfl := eq_of_toLower hlower (by decide)
    exact ⟨'/', hd, List.mem_singleton_self '/'⟩
  idna_slash s t h := by cases h

end Python
