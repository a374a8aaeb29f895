import Mathlib.Algebra.Order.Group.Unbundled.Abs
import Mathlib.Tactic.NormNum
import Mathlib.Tactic.Ring

/-!
# Datetimes with a time zone

A time-zone-aware `datetime` has a wall clock and an offset from UTC, and stands for the instant
that both determine; datetimes are compared by their instants. A database column without time
zones keeps the wall clock only, and what is read from it is taken to be in UTC.

## Main definitions

* `ZonedTime`, `ZonedTime.instant`
* `ZonedTime.utc`: a datetime in UTC
* `ZonedTime.reread`: what comes back from a column without time zones

## Main results

* `instant_reread`: the instant that is read differs by the offset
* `reread_same_iff`: it is the same instant when the offset is zero
* `wall_eq_instant_iff`: and then the wall clock is the instant
-/

namespace Python

/-- A time-zone-aware `datetime`: its wall clock and its `utcoffset()`, in microseconds. An offset is
less than a day. -/
structure ZonedTime where
  wall : ℤ
  offset : ℤ
  offset_lt : |offset| < 86400000000

namespace ZonedTime

/-- The instant that a datetime stands for. -/
def instant (t : ZonedTime) : ℤ := t.wall - t.offset

/-- The datetime of an instant in UTC. -/
def utc (instant : ℤ) : ZonedTime := ⟨instant, 0, by norm_num⟩

/-- What comes back from a column without time zones, with `replace(tzinfo=UTC)`. -/
def reread (t : ZonedTime) : ZonedTime := utc t.wall

@[simp] theorem instant_utc (instant : ℤ) : (utc instant).instant = instant := sub_zero instant

/-- The instant that is read differs by the offset. -/
theorem instant_reread (t : ZonedTime) : t.reread.instant = t.instant + t.offset := by
  rw [reread, instant_utc, instant]
  ring

/-- **The same instant is read exactly when the offset is zero.** -/
theorem reread_same_iff {t : ZonedTime} : t.reread.instant = t.instant ↔ t.offset = 0 := by
  rw [instant_reread]
  exact add_eq_left

/-- So the wall clock is the instant. -/
theorem wall_eq_instant_iff (t : ZonedTime) : t.wall = t.instant ↔ t.offset = 0 := by
  rw [← reread_same_iff, reread, instant_utc]

theorem map_wall_eq_iff (time : Option ZonedTime) :
    time.map wall = time.map instant ↔ ∀ t ∈ time, t.offset = 0 := by
  cases time with
  | none => simp
  | some t => simp [wall_eq_instant_iff]

end ZonedTime

end Python
