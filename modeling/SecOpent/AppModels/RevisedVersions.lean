import SecOpent.AppModels.Service

/-!
# The version of a revision

`revise` counts the last segment of a version up until the version is new. What `isdigit` calls a digit
is more than what `int` reads, and neither `int` nor `str` handles a number with more than 4300 digits.

## Main definitions

* `HasNextVersion`: the condition under which the loop returns

## Main results

* `nextVersion_returns_iff`: exactly when there is a next version, which is new, and that a revision
  never overwrites a model
-/

namespace SecOpent

open Python

/-- A number after `n` is short enough to be written, and gives a version that is not there. -/
def CountsUp (existing : List String) (start : Str) (n : ℕ) : Prop :=
  ∃ m, n < m ∧ m < 10 ^ maxStrDigits ∧ numberedVersion start m ∉ existing

/-- If the last segment is all digits, `int` reads it. From there, or from zero where a segment is
added, a version that is not there can be counted up to. -/
def HasNextVersion (U : Unicode) (existing : List String) (current : String) : Prop :=
  let parts := versionParts current.toList
  if isDigit U parts.2 then ∃ n ∈ int U parts.2, CountsUp existing parts.1 n.toNat
  else CountsUp existing (current.toList ++ ['.']) 0

theorem countsUp_iff {existing : List String} {start : Str} {n : ℕ} :
    CountsUp existing start n ↔
      ∃ version, bumpVersion existing start existing.length (n + 1) = .ok version :=
  exists_bumpVersion_iff.symm

theorem exists_nextVersion_iff {U : Unicode} {existing : List String} {current : String} :
    (∃ version, nextVersion U existing current = .ok version) ↔
      HasNextVersion U existing current := by
  simp only [nextVersion, HasNextVersion, countsUp_iff]
  split
  · -- The last segment is all digits, but `int` may still not read it.
    cases int U (versionParts current.toList).2 with
    | none => simp
    | some n => simp
  · rfl

/-- **There is a next version**, which is new, exactly if the last segment can be counted up; and a
revision never overwrites a model. -/
theorem nextVersion_returns_iff (service : AppModelService) (existing : List String)
    (current : String) :
    ((∃ version, nextVersion service.unicode existing current = .ok version ∧ version ∉ existing) ↔
      HasNextVersion service.unicode existing current) ∧
    ∀ content registry new after,
      service.revise content none registry = (.ok new, after) → registry.get? new.key = none := by
  refine ⟨?_, fun content registry new after h => (AppModelService.revise_eq_ok h).1⟩
  rw [← exists_nextVersion_iff]
  constructor
  · rintro ⟨version, hversion, -⟩
    exact ⟨version, hversion⟩
  · rintro ⟨version, hversion⟩
    exact ⟨version, hversion, nextVersion_not_mem hversion⟩

/-- Tables in which a superscript two is a digit, but no decimal digit. -/
def superscriptTables : Unicode := { Unicode.ascii with digit := fun c => c == '²' }

/-- The version `1.²` has no next one. -/
theorem superscript_version_raises :
    ¬∃ version, nextVersion superscriptTables [] "1.²" = .ok version ∧
      version ∉ ([] : List String) := by
  rintro ⟨version, h, -⟩
  have hraises : nextVersion superscriptTables [] "1.²" =
      .error "invalid literal for int() with base 10: '²'" := by rfl
  rw [hraises] at h
  cases h

end SecOpent
