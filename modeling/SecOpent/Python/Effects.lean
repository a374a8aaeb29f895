import Mathlib.Data.List.Basic

/-!
# Calls that act on the outside

A Python method that acts through its collaborators: it does one thing after the other and then
returns or raises, and what it did before it raised is done. Where its arguments say what the
collaborators answer, the method is the list of its effects and its result.

## Main definitions

* `Acting ε η α`: effects of type `η`, and a result or an exception
* `Acting.effect`, `Acting.raise`, `Acting.ofExcept`, `Acting.tryExcept`
* `Acting.Only P`: every effect satisfies `P`

## Main results

* `bind_of_ok`, `bind_of_error`: a sequence of calls after the result of the first one
* `Only.bind`: the effects of a sequence of calls
-/

namespace Python

/-- What a call does, in order, and how it ends. -/
structure Acting (ε η α : Type) where
  effects : List η
  result : Except ε α

namespace Acting

variable {ε η α β : Type}

instance : Monad (Acting ε η) where
  pure a := ⟨[], .ok a⟩
  bind x f :=
    match x.result with
    | .ok a => ⟨x.effects ++ (f a).effects, (f a).result⟩
    | .error error => ⟨x.effects, .error error⟩

/-- One effect. -/
def effect (e : η) : Acting ε η Unit := ⟨[e], .ok ()⟩

/-- `raise`. -/
def raise (error : ε) : Acting ε η α := ⟨[], .error error⟩

/-- `try: x except Exception as exc: handler(exc)`. -/
def tryExcept (x : Acting ε η α) (handler : ε → Acting ε η α) : Acting ε η α :=
  match x.result with
  | .ok _ => x
  | .error error => ⟨x.effects ++ (handler error).effects, (handler error).result⟩

/-- The answer of a collaborator, which may raise. -/
def ofExcept (answer : Except ε α) : Acting ε η α := ⟨[], answer⟩

@[simp] theorem pure_effects (a : α) : (pure a : Acting ε η α).effects = [] := rfl

@[simp] theorem pure_result (a : α) : (pure a : Acting ε η α).result = .ok a := rfl

@[simp] theorem effect_effects (e : η) : (effect e : Acting ε η Unit).effects = [e] := rfl

@[simp] theorem effect_result (e : η) : (effect e : Acting ε η Unit).result = .ok () := rfl

@[simp] theorem raise_effects (error : ε) : (raise error : Acting ε η α).effects = [] := rfl

@[simp] theorem raise_result (error : ε) : (raise error : Acting ε η α).result = .error error := rfl

@[simp] theorem ofExcept_effects (answer : Except ε α) :
    (ofExcept answer : Acting ε η α).effects = [] := rfl

@[simp] theorem ofExcept_result (answer : Except ε α) :
    (ofExcept answer : Acting ε η α).result = answer := rfl

variable {x : Acting ε η α} {f : α → Acting ε η β} {a : α} {error : ε}

theorem bind_of_ok (h : x.result = .ok a) :
    x >>= f = ⟨x.effects ++ (f a).effects, (f a).result⟩ := by
  simp only [bind, h]

theorem bind_of_error (h : x.result = .error error) : x >>= f = ⟨x.effects, .error error⟩ := by
  simp only [bind, h]

theorem ofExcept_ok_bind {answer : Except ε α} (h : answer = .ok a) :
    ofExcept answer >>= f = f a := by
  rw [h]
  rfl

theorem ofExcept_error_bind {answer : Except ε α} (h : answer = .error error) :
    ofExcept answer >>= f = raise error := by
  rw [h]
  rfl

/-- A sequence of calls returns if all of them do. -/
theorem bind_result_eq_ok {b : β} (h : (x >>= f).result = .ok b) :
    ∃ a, x.result = .ok a ∧ (f a).result = .ok b := by
  cases hresult : x.result with
  | error error =>
    rw [bind_of_error hresult] at h
    cases h
  | ok a =>
    rw [bind_of_ok hresult] at h
    exact ⟨a, rfl, h⟩

theorem eq_mk (h : x.result = .ok a) : x = ⟨x.effects, .ok a⟩ := congrArg (mk x.effects) h

/-- A call that goes on after an answer is the rest of it. -/
theorem ofExcept_bind_eq_ok {answer : Except ε α} {effects : List η} {b : β}
    (h : ofExcept answer >>= f = ⟨effects, .ok b⟩) :
    ∃ a, answer = .ok a ∧ f a = ⟨effects, .ok b⟩ := by
  obtain ⟨a, rfl, -⟩ := bind_result_eq_ok (congrArg result h)
  exact ⟨a, rfl, h⟩

/-- What follows a call and does nothing leaves its effects. -/
theorem bind_effects_of_silent (h : ∀ a, (f a).effects = []) : (x >>= f).effects = x.effects := by
  cases hresult : x.result with
  | error error => rw [bind_of_error hresult]
  | ok a => rw [bind_of_ok hresult, h a, List.append_nil]

/-- A handler that does nothing leaves the effects of the call. -/
theorem tryExcept_effects_of_silent {handler : ε → Acting ε η α}
    (h : ∀ error, (handler error).effects = []) : (tryExcept x handler).effects = x.effects := by
  unfold tryExcept
  cases x.result with
  | error error => simp only [h, List.append_nil]
  | ok a => rfl

theorem tryExcept_result_of_ok {handler : ε → Acting ε η α} (h : x.result = .ok a) :
    (tryExcept x handler).result = .ok a := by
  simp only [tryExcept, h]

theorem tryExcept_result_of_error {handler : ε → Acting ε η α} (h : x.result = .error error) :
    (tryExcept x handler).result = (handler error).result := by
  simp only [tryExcept, h]

/-- Every effect satisfies `P`. -/
def Only (P : η → Prop) (x : Acting ε η α) : Prop := ∀ e ∈ x.effects, P e

variable {P : η → Prop}

theorem Only.pure (a : α) : Only P (Pure.pure a : Acting ε η α) := by simp [Only]

theorem Only.raise (error : ε) : Only P (raise error : Acting ε η α) := by simp [Only]

theorem Only.ofExcept (answer : Except ε α) : Only P (ofExcept answer : Acting ε η α) := by
  simp [Only]

theorem Only.effect {e : η} (h : P e) : Only P (effect e : Acting ε η Unit) := by simpa [Only]

/-- The effects of a sequence of calls. -/
theorem Only.bind (hx : Only P x) (hf : ∀ a, x.result = .ok a → Only P (f a)) :
    Only P (x >>= f) := by
  cases hresult : x.result with
  | error error =>
    rw [bind_of_error hresult]
    exact hx
  | ok a =>
    rw [bind_of_ok hresult]
    intro e he
    rcases List.mem_append.mp he with he | he
    · exact hx e he
    · exact hf a hresult e he

theorem Only.ite {c : Prop} [Decidable c] {x y : Acting ε η α} (hx : c → Only P x)
    (hy : ¬c → Only P y) : Only P (if c then x else y) := by
  split
  · exact hx ‹c›
  · exact hy ‹¬c›

end Acting

end Python
