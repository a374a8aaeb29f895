import Mathlib.Data.List.Basic
import Mathlib.Data.Nat.Digits.Defs
import SecOpent.Python.Text

/-!
# Instants

A time-zone-aware `datetime` in UTC, by its components, and its ISO 8601 text as the canonical JSON
writes it. Instants are compared by their components, the year first; this is also how a database
compares them, whether it stores numbers or texts.

## Main definitions

* `DateTime`, `DateTime.ticks`: an instant, and its place in the order of instants
* `DateTime.isoformat`: `isoformat().replace("+00:00", "Z")`

## Main results

* `DateTime.isoformat_inj`: an instant is determined by its text
-/

namespace Python

/-! ## Numbers of fixed width -/

/-- A number written with `width` decimal digits, as `%04d` writes it. -/
def pad : ℕ → ℕ → Str
  | 0, _ => []
  | width + 1, n => pad width (n / 10) ++ [Nat.digitChar (n % 10)]

@[simp] theorem length_pad (width n : ℕ) : (pad width n).length = width := by
  induction width generalizing n with
  | zero => rfl
  | succ width ih => simp [pad, ih]

theorem digitChar_inj : ∀ m < 10, ∀ n < 10, Nat.digitChar m = Nat.digitChar n → m = n := by
  decide

theorem pad_inj {width m n : ℕ} (hm : m < 10 ^ width) (hn : n < 10 ^ width)
    (h : pad width m = pad width n) : m = n := by
  induction width generalizing m n with
  | zero => simp_all
  | succ width ih =>
    obtain ⟨hhigh, hlow⟩ := List.append_inj h (by simp)
    have hdigit := digitChar_inj _ (Nat.mod_lt m (by norm_num)) _ (Nat.mod_lt n (by norm_num))
      (List.cons.inj hlow).1
    have hrest := ih (by omega) (by omega) hhigh
    omega

theorem mem_pad_isDigit {width n : ℕ} {c : Char} (h : c ∈ pad width n) : c.isDigit = true := by
  induction width generalizing n with
  | zero => cases h
  | succ width ih =>
    rcases List.mem_append.mp h with h | h
    · exact ih h
    · rw [List.mem_singleton.mp h]
      have hall : ∀ m < 10, (Nat.digitChar m).isDigit = true := by decide
      exact hall _ (Nat.mod_lt _ (by norm_num))

/-! ## Instants -/

/-- A `datetime` in UTC. -/
structure DateTime where
  year : Fin 10000
  month : Fin 13
  day : Fin 32
  hour : Fin 24
  minute : Fin 60
  second : Fin 60
  microsecond : Fin 1000000
  deriving DecidableEq

namespace DateTime

/-- The place of an instant in the order of instants. -/
def ticks (t : DateTime) : ℕ :=
  (((((t.year.val * 13 + t.month.val) * 32 + t.day.val) * 24 + t.hour.val) * 60 + t.minute.val) * 60 +
    t.second.val) * 1000000 + t.microsecond.val

/-- The fraction of the second, which is left out when it is zero. -/
def fraction (t : DateTime) : Str :=
  if t.microsecond.val = 0 then [] else '.' :: pad 6 t.microsecond.val

/-- `isoformat().replace("+00:00", "Z")`. -/
def isoformat (t : DateTime) : Str :=
  pad 4 t.year ++ '-' :: (pad 2 t.month ++ '-' :: (pad 2 t.day ++ 'T' :: (pad 2 t.hour ++
    ':' :: (pad 2 t.minute ++ ':' :: (pad 2 t.second ++ (t.fraction ++ ['Z']))))))

theorem fraction_inj {s t : DateTime} (h : s.fraction ++ ['Z'] = t.fraction ++ ['Z']) :
    s.microsecond = t.microsecond := by
  have h := List.append_cancel_right h
  unfold fraction at h
  split at h
  next hs =>
    split at h
    next ht => exact Fin.ext (hs.trans ht.symm)
    next => cases h
  next =>
    split at h
    next => cases h
    next => exact Fin.ext (pad_inj s.microsecond.isLt t.microsecond.isLt (List.cons.inj h).2)

/-- **An instant is determined by its text.** -/
theorem isoformat_inj {s t : DateTime} (h : s.isoformat = t.isoformat) : s = t := by
  have hfield : ∀ {width m n : ℕ} {c : Char} {r r' : Str}, m < 10 ^ width → n < 10 ^ width →
      pad width m ++ c :: r = pad width n ++ c :: r' → m = n ∧ r = r' := by
    intro width m n c r r' hm hn h
    obtain ⟨hpad, hrest⟩ := List.append_inj h (by simp)
    exact ⟨pad_inj hm hn hpad, (List.cons.inj hrest).2⟩
  unfold isoformat at h
  obtain ⟨hyear, h⟩ := hfield s.year.isLt t.year.isLt h
  obtain ⟨hmonth, h⟩ := hfield (by omega) (by omega) h
  obtain ⟨hday, h⟩ := hfield (by omega) (by omega) h
  obtain ⟨hhour, h⟩ := hfield (by omega) (by omega) h
  obtain ⟨hminute, h⟩ := hfield (by omega) (by omega) h
  obtain ⟨hsecond, h⟩ := List.append_inj h (by simp)
  have hsecond := pad_inj (by omega) (by omega) hsecond
  have hmicro := fraction_inj h
  obtain ⟨y, m, d, hr, mi, se, us⟩ := s
  obtain ⟨y', m', d', hr', mi', se', us'⟩ := t
  simp only [mk.injEq]
  exact ⟨Fin.ext hyear, Fin.ext hmonth, Fin.ext hday, Fin.ext hhour, Fin.ext hminute,
    Fin.ext hsecond, hmicro⟩

end DateTime

end Python
