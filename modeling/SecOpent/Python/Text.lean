import Mathlib.Data.List.DropRight

/-!
# Python text

The fragment of Python's `str` in which addresses, URLs and domain names are handled, on the
sequence of code points. On ASCII text every operation is computed here; what CPython reads off
its Unicode tables (case folding, decimal digits, NFKC, the IDNA codec) is the parameter
`Unicode`, consulted on non-ASCII text only.

## Main definitions

* `Str`, `Unicode`: text, and the tables behind its non-ASCII part
* `strip`, `lower`, `upper`, `partition`, `rpartition`: the `str` methods
* `int U s`: the integer literal `int(s)` accepts
* `encodeIdna U s`: `s.encode("idna").decode("ascii")`

## Main results

* `partition_append`, `rpartition_append`: text is split at the first and at the last separator
-/

namespace Python

/-- A Python `str`, as its sequence of code points. -/
abbrev Str := List Char

instance : LawfulBEq Str := inferInstance

/-- CPython's Unicode tables: `str.lower`, the decimal value of a digit, `str.isalnum`, NFKC
normalisation, the IDNA codec, and `str.isdigit`. They are only consulted on text that is not
ASCII. -/
structure Unicode where
  lower : Str → Str
  decimal : Char → Option ℕ
  alnum : Char → Bool
  nfkc : Str → Str
  idna : Str → Option Str
  digit : Char → Bool

/-- Tables that know ASCII only: enough for any run on ASCII text. -/
def Unicode.ascii : Unicode :=
  ⟨id, fun _ => none, fun _ => false, id, fun _ => none, fun _ => false⟩

/-- `str.isascii`. -/
def isAscii (s : Str) : Bool := s.all fun c => c.toNat < 128

/-- `str.isspace`, on one character. -/
def isSpace (c : Char) : Bool :=
  let n := c.toNat
  (9 ≤ n && n ≤ 13) || (28 ≤ n && n ≤ 32) || n == 0x85 || n == 0xa0 || n == 0x1680 ||
    (0x2000 ≤ n && n ≤ 0x200a) || n == 0x2028 || n == 0x2029 || n == 0x202f || n == 0x205f ||
    n == 0x3000

/-- `str.lstrip`, with the characters to strip given by a predicate. -/
def lstrip (p : Char → Bool) (s : Str) : Str := s.dropWhile p

/-- `str.rstrip`, with the characters to strip given by a predicate. -/
def rstrip (p : Char → Bool) (s : Str) : Str := s.rdropWhile p

/-- `str.strip()`. -/
def strip (s : Str) : Str := rstrip isSpace (lstrip isSpace s)

/-- `str.startswith`. -/
def startsWith (s pre : Str) : Bool := pre.isPrefixOf s

/-- `str.endswith`. -/
def endsWith (s suf : Str) : Bool := suf.isSuffixOf s

/-- `str.lower`. -/
def lower (U : Unicode) (s : Str) : Str :=
  if isAscii s then s.map Char.toLower else U.lower s

/-- `str.upper`, with the table for text that is not ASCII. -/
def upper (table : Str → Str) (s : Str) : Str :=
  if isAscii s then s.map Char.toUpper else table s

/-- `str.isalnum`. -/
def isAlnum (U : Unicode) (s : Str) : Bool :=
  !s.isEmpty && s.all fun c => if c.toNat < 128 then c.isAlphanum else U.alnum c

/-- `str.isdigit`. -/
def isDigit (U : Unicode) (s : Str) : Bool :=
  !s.isEmpty && s.all fun c => if c.toNat < 128 then c.isDigit else U.digit c

/-- `str.partition`, without its separator: the text before and after the first `c`. -/
def partition (c : Char) (s : Str) : Str × Str :=
  (s.takeWhile (· != c), (s.dropWhile (· != c)).drop 1)

/-- `str.rpartition`, without its separator: the text before and after the last `c`. -/
def rpartition (c : Char) (s : Str) : Str × Str :=
  ((s.rdropWhile (· != c)).dropLast, s.rtakeWhile (· != c))

/-- The text with `old` replaced, after `skip` more characters of a replaced occurrence. -/
def replaceFrom (old new : Str) : ℕ → Str → Str
  | _, [] => []
  | 0, c :: s =>
    if startsWith (c :: s) old then new ++ replaceFrom old new (old.length - 1) s
    else c :: replaceFrom old new 0 s
  | skip + 1, _ :: s => replaceFrom old new skip s

/-- `s.replace(old, new)`, for an `old` that is not empty. -/
def replace (s old new : Str) : Str := replaceFrom old new 0 s

/-- The decimal value of a digit, as `int` reads it. -/
def digit (U : Unicode) (c : Char) : Option ℕ :=
  if c.toNat < 128 then
    if c.isDigit then some (c.toNat - 48) else none
  else U.decimal c

/-- The default of `sys.int_info.default_max_str_digits`: longer literals are refused. -/
def maxStrDigits : ℕ := 4300

/-- The value of a run of digits in which single underscores may separate digits. -/
def digits (U : Unicode) (s : Str) : Option ℕ :=
  let groups := s.splitOn '_'
  if groups.any List.isEmpty then none
  else
    match groups.flatten.mapM (digit U) with
    | none => none
    | some ds => if maxStrDigits < ds.length then none else some (ds.foldl (10 * · + ·) 0)

/-- `int(s)`: surrounding blanks, an optional sign, then digits. `none` is a `ValueError`. -/
def int (U : Unicode) (s : Str) : Option ℤ :=
  match strip s with
  | '+' :: body => (digits U body).map fun n : ℕ => (n : ℤ)
  | '-' :: body => (digits U body).map fun n : ℕ => -(n : ℤ)
  | body => (digits U body).map fun n : ℕ => (n : ℤ)

/-- `s.encode("idna").decode("ascii")`; `none` is a `UnicodeError`. On ASCII text the codec only
checks the lengths of the labels: 1 to 63, where the last one may be empty. -/
def encodeIdna (U : Unicode) (s : Str) : Option Str :=
  if s.isEmpty then some []
  else if isAscii s then
    let labels := s.splitOn '.'
    if labels.dropLast.all (fun l => 0 < l.length && l.length < 64) &&
        labels.getLast?.all (fun l => l.length < 64) then some s
    else none
  else U.idna s

/-- A text with a start that is not empty. -/
theorem append_ne_empty {start : String} (text : String) (h : start ≠ "") : start ++ text ≠ "" := by
  intro happend
  have hlength := congrArg String.length happend
  rw [String.length_append, String.length_empty] at hlength
  exact h (String.length_eq_zero_iff.mp (by omega))

/-! ## Splitting -/

theorem partition_append (c : Char) {a b : Str} (ha : c ∉ a) :
    partition c (a ++ c :: b) = (a, b) := by
  have hne : ∀ x ∈ a, (x != c) = true := by
    intro x hx
    simp only [bne_iff_ne, ne_eq]
    rintro rfl
    exact ha hx
  rw [partition, List.takeWhile_append_of_pos hne, List.dropWhile_append_of_pos hne]
  simp

theorem rpartition_append (c : Char) {a b : Str} (hb : c ∉ b) :
    rpartition c (a ++ c :: b) = (a, b) := by
  have hne : ∀ x ∈ b, (x != c) = true := by
    intro x hx
    simp only [bne_iff_ne, ne_eq]
    rintro rfl
    exact hb hx
  have htake : (a ++ c :: b).rtakeWhile (· != c) = b := by
    rw [List.rtakeWhile, List.reverse_append, List.reverse_cons, List.append_assoc,
      List.singleton_append, List.takeWhile_append_of_pos (by simpa using hne)]
    simp
  have hdrop : (a ++ c :: b).rdropWhile (· != c) = a ++ [c] := by
    rw [List.rdropWhile, List.reverse_append, List.reverse_cons, List.append_assoc,
      List.singleton_append, List.dropWhile_append_of_pos (by simpa using hne)]
    simp
  rw [rpartition, htake, hdrop, List.dropLast_concat]

/-- A text in which `c` occurs has a last occurrence of `c`. -/
theorem exists_eq_append_last {c : Char} {s : Str} (h : c ∈ s) :
    ∃ a b, s = a ++ c :: b ∧ c ∉ b := by
  induction s with
  | nil => simp at h
  | cons d s ih =>
    by_cases hs : c ∈ s
    · obtain ⟨a, b, rfl, hb⟩ := ih hs
      exact ⟨d :: a, b, rfl, hb⟩
    · rcases List.mem_cons.mp h with rfl | h'
      · exact ⟨[], s, rfl, hs⟩
      · exact absurd h' hs

/-- A text in which `c` occurs is split by `rpartition` around its last `c`. -/
theorem eq_rpartition {c : Char} {s : Str} (h : c ∈ s) :
    s = (rpartition c s).1 ++ c :: (rpartition c s).2 ∧ c ∉ (rpartition c s).2 := by
  obtain ⟨a, b, rfl, hb⟩ := exists_eq_append_last h
  rw [rpartition_append c hb]
  exact ⟨rfl, hb⟩

theorem not_mem_partition (c : Char) (s : Str) : c ∉ (partition c s).1 := by
  intro hmem
  have hchar := List.mem_takeWhile_imp hmem
  simp at hchar

theorem partition_of_not_mem {c : Char} {s : Str} (h : c ∉ s) : partition c s = (s, []) := by
  have hall : ∀ d ∈ s, (d != c) = true := by
    intro d hd
    simpa using fun heq : d = c => h (heq ▸ hd)
  rw [partition, List.takeWhile_eq_self_iff.mpr hall]
  have hdrop : s.dropWhile (· != c) = [] := List.dropWhile_eq_nil_iff.mpr hall
  rw [hdrop]
  rfl

theorem partition_fst_subset (c : Char) (s : Str) : (partition c s).1 ⊆ s := List.takeWhile_subset _

theorem partition_snd_subset (c : Char) (s : Str) : (partition c s).2 ⊆ s := fun _ hd =>
  List.dropWhile_subset _ (List.mem_of_mem_drop hd)

theorem rpartition_subset (c : Char) (s : Str) : (rpartition c s).2 ⊆ s :=
  (List.rtakeWhile_suffix _ _).subset

theorem not_mem_rpartition (c : Char) (s : Str) : c ∉ (rpartition c s).2 := by
  intro hmem
  have hchar := List.mem_rtakeWhile_imp hmem
  simp at hchar

theorem rpartition_of_not_mem {c : Char} {s : Str} (h : c ∉ s) : (rpartition c s).2 = s := by
  rw [rpartition, List.rtakeWhile_eq_self_iff]
  intro d hd
  simpa using fun heq : d = c => h (heq ▸ hd)

end Python
