import Mathlib.Data.Nat.Notation
import Mathlib.Logic.Basic

/-!
# What a computation raises

Handlers of one kind of error let the others through. A computation raises only errors that are allowed
when each of its steps does that is reached, so the question is settled step by step. The depth of the
stack is a number of frames that are left: a call takes one, and raises where there is none.

## Main definitions

* `RaisesOnly allowed x`: `x` returns, or raises an allowed error
* `frame`: a call, with the frames that are left
* `Framed`: there is a frame left, and something holds with the rest

## Main results

* `raisesOnly_bind_iff`: what a sequence raises
* `raisesOnly_frame_iff`: what a call raises, when running out of the stack is not allowed
* `exists_foldlM_iff`: when a loop returns
-/

namespace Python

variable {ε α β : Type} {allowed : ε → Prop}

/-- The computation returns, or raises an allowed error. -/
def RaisesOnly (allowed : ε → Prop) (x : Except ε α) : Prop := ∀ error, x = .error error → allowed error

@[simp] theorem raisesOnly_ok {a : α} : RaisesOnly allowed (.ok a) :=
  fun _ h => by cases h

@[simp] theorem raisesOnly_pure {a : α} : RaisesOnly allowed (pure a : Except ε α) := raisesOnly_ok

@[simp] theorem raisesOnly_error_iff {error : ε} :
    RaisesOnly allowed (.error error : Except ε α) ↔ allowed error := by
  constructor
  · intro h
    exact h error rfl
  · intro h error' heq
    cases heq
    exact h

/-- **A sequence raises what its first part raises**, or what the rest does with its value. -/
theorem raisesOnly_bind_iff {x : Except ε α} {f : α → Except ε β} :
    RaisesOnly allowed (x >>= f) ↔
      RaisesOnly allowed x ∧ ∀ a, x = .ok a → RaisesOnly allowed (f a) := by
  cases x with
  | error error =>
    show RaisesOnly allowed (.error error) ↔ _
    simp
  | ok a =>
    show RaisesOnly allowed (f a) ↔ _
    simp

/-- A call of a function: it takes a frame of the stack. -/
def frame (overflow : ε) (body : ℕ → Except ε α) : ℕ → Except ε α
  | 0 => .error overflow
  | n + 1 => body n

theorem frame_eq_ok_iff {overflow : ε} {body : ℕ → Except ε α} {n : ℕ} {a : α} :
    frame overflow body n = .ok a ↔ ∃ m, n = m + 1 ∧ body m = .ok a := by
  cases n with
  | zero => exact iff_of_false nofun (by rintro ⟨m, hm, -⟩; cases hm)
  | succ n =>
    constructor
    · exact fun h => ⟨n, rfl, h⟩
    · rintro ⟨m, hm, h⟩
      cases hm
      exact h

/-- There is a frame left, and `p` holds of the rest. -/
def Framed (p : ℕ → Prop) : ℕ → Prop
  | 0 => False
  | n + 1 => p n

theorem raisesOnly_frame_iff {overflow : ε} {body : ℕ → Except ε α} {n : ℕ}
    (hoverflow : ¬allowed overflow) :
    RaisesOnly allowed (frame overflow body n) ↔ Framed (fun n => RaisesOnly allowed (body n)) n := by
  cases n with
  | zero => simp [frame, Framed, hoverflow]
  | succ n => rfl

theorem framed_congr {p q : ℕ → Prop} {n : ℕ} (h : ∀ n, p n ↔ q n) : Framed p n ↔ Framed q n := by
  cases n with
  | zero => rfl
  | succ n => exact h n

/-- **A loop that nothing interrupts**: it returns exactly if each of its items gives a result. -/
theorem exists_foldlM_iff {γ : Type} (put : β → α → γ → β) (f : α → Except ε γ) {items : List α}
    {start : β} :
    (∃ b, items.foldlM (fun acc item => do
        let c ← f item
        pure (put acc item c)) start = .ok b) ↔
      ∀ item ∈ items, ∃ c, f item = .ok c := by
  induction items generalizing start with
  | nil => simp [List.foldlM, pure, Except.pure]
  | cons item items ih =>
    rw [List.forall_mem_cons, List.foldlM_cons]
    cases hitem : f item with
    | error error => simp [bind, Except.bind]
    | ok c =>
      rw [and_iff_right ⟨c, rfl⟩]
      exact ih

end Python
