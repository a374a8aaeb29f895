import Mathlib.Logic.Basic

/-!
# Calls

A Python call on a mutable state: it returns a value or raises an exception, and whatever it did
to the state before it raised remains done.

## Main definitions

* `Call σ α`: a call that returns an `α`
* `Call.raise`, `Call.tryExcept`: `raise`, and `try` with `except Exception`
* `Call.Returns`: the call raises nothing
* `Call.Silent`: the call leaves the state as it was
* `Call.Raises`, `Call.RaisesIn`: the call always raises, and the states in which it raises
* `Call.Clean`, `Call.transaction`: nothing is written before the call raises, and how to see to that

## Main results

* `Call.bind_eq_ok`: a sequence of calls returns exactly if each of them does
* `Call.bind_of_ok`, `Call.bind_of_error`: a sequence after the result of its first call
* `Call.raisesIn_bind`, `Call.raisesIn_tryExcept_bind`: the states in which a sequence raises, and one
  that begins with a `try`
-/

namespace Python

/-- A call on a state: the value that it returns, or the text of the exception that it raises, and the
state that it leaves. -/
def Call (σ α : Type) := σ → Except String α × σ

namespace Call

variable {σ α β : Type}

instance : Monad (Call σ) where
  pure a := fun s => (.ok a, s)
  bind x f := fun s =>
    match x s with
    | (.ok a, t) => f a t
    | (.error error, t) => (.error error, t)

/-- `raise`. -/
def raise (error : String) : Call σ α := fun s => (.error error, s)

/-- `try: x except Exception as exc: handler(exc)`. -/
def tryExcept (x : Call σ α) (handler : String → Call σ α) : Call σ α := fun s =>
  match x s with
  | (.ok a, t) => (.ok a, t)
  | (.error error, t) => handler error t

/-- The result of a computation that may raise and has no state. -/
def ofExcept {ε : Type} (text : ε → String) : Except ε α → Call σ α
  | .ok a => fun s => (.ok a, s)
  | .error error => raise (text error)

/-- A value read from the state. -/
def read (value : σ → α) : Call σ α := fun s => (.ok (value s), s)

/-- The call raises nothing, whatever the state. -/
def Returns (x : Call σ α) : Prop := ∀ s, ∃ a t, x s = (.ok a, t)

variable {x : Call σ α} {f : α → Call σ β} {s t u : σ} {a : α} {b : β} {error : String}

@[simp] theorem pure_apply : (pure a : Call σ α) s = (.ok a, s) := rfl

@[simp] theorem raise_apply : (raise error : Call σ α) s = (.error error, s) := rfl

@[simp] theorem read_apply {value : σ → α} : read value s = (.ok (value s), s) := rfl

theorem bind_of_ok (h : x s = (.ok a, t)) : (x >>= f) s = f a t := by
  simp only [bind, h]

theorem bind_of_error (h : x s = (.error error, t)) : (x >>= f) s = (.error error, t) := by
  simp only [bind, h]

/-- A sequence of calls returns exactly if each of them does. -/
theorem bind_eq_ok : (x >>= f) s = (.ok b, u) ↔ ∃ a t, x s = (.ok a, t) ∧ f a t = (.ok b, u) := by
  constructor
  · intro h
    rcases hx : x s with ⟨⟨error⟩ | a, t⟩
    · rw [bind_of_error hx] at h
      cases h
    · rw [bind_of_ok hx] at h
      exact ⟨a, t, rfl, h⟩
  · rintro ⟨a, t, hx, hf⟩
    rw [bind_of_ok hx, hf]

theorem ofExcept_ok {ε : Type} {text : ε → String} :
    (ofExcept text (.ok a) : Call σ α) s = (.ok a, s) := rfl

theorem ofExcept_error {ε : Type} {text : ε → String} {e : ε} :
    (ofExcept text (.error e) : Call σ α) s = (.error (text e), s) := rfl

theorem ofExcept_eq_ok {ε : Type} {text : ε → String} {result : Except ε α} :
    (ofExcept text result : Call σ α) s = (.ok a, t) ↔ result = .ok a ∧ s = t := by
  cases result with
  | ok value => simp [ofExcept]
  | error error => simp [ofExcept]

theorem Returns.pure (a : α) : (Pure.pure a : Call σ α).Returns := fun s => ⟨a, s, rfl⟩

/-- A sequence of calls that raise nothing raises nothing. -/
theorem Returns.bind (hx : x.Returns) (hf : ∀ a, (f a).Returns) : (x >>= f).Returns := by
  intro s
  obtain ⟨a, t, ha⟩ := hx s
  obtain ⟨b, u, hb⟩ := hf a t
  exact ⟨b, u, bind_eq_ok.mpr ⟨a, t, ha, hb⟩⟩

/-! ## Calls that only read -/

/-- The call leaves the state as it was. -/
def Silent (x : Call σ α) : Prop := ∀ s, (x s).2 = s

theorem Silent.pure (a : α) : (Pure.pure a : Call σ α).Silent := fun _ => rfl

theorem Silent.raise (error : String) : (Call.raise error : Call σ α).Silent := fun _ => rfl

theorem Silent.ofExcept {ε : Type} (text : ε → String) (result : Except ε α) :
    (Call.ofExcept text result : Call σ α).Silent := by
  intro s
  cases result with
  | ok a => rfl
  | error error => rfl

theorem Silent.read (value : σ → α) : (Call.read value).Silent := fun _ => rfl

theorem Silent.bind (hx : x.Silent) (hf : ∀ a, (f a).Silent) : (x >>= f).Silent := by
  intro s
  rcases h : x s with ⟨⟨error⟩ | a, t⟩
  · rw [bind_of_error h, ← hx s, h]
  · rw [bind_of_ok h, hf a t, ← hx s, h]

theorem Silent.eq (hx : x.Silent) {result : Except String α} (h : x s = (result, t)) : t = s := by
  rw [← hx s, h]

/-! ## Where a call raises -/

/-- Every state in which the call raises has the property. -/
def RaisesIn (post : σ → Prop) (x : Call σ α) (s : σ) : Prop :=
  ∀ error t, x s = (.error error, t) → post t

variable {post : σ → Prop}

/-- A sequence raises where its first call raises, or the rest after it. -/
theorem raisesIn_bind :
    (x >>= f).RaisesIn post s ↔
      x.RaisesIn post s ∧ ∀ a t, x s = (.ok a, t) → (f a).RaisesIn post t := by
  constructor
  · intro h
    refine ⟨fun error t hx => h error t (bind_of_error hx), fun a t hx error u hf => h error u ?_⟩
    rw [bind_of_ok hx]
    exact hf
  · rintro ⟨hfirst, hrest⟩ error u hbind
    rcases hx : x s with ⟨⟨error'⟩ | a, t⟩
    · rw [bind_of_error hx] at hbind
      cases hbind
      exact hfirst _ _ hx
    · rw [bind_of_ok hx] at hbind
      exact hrest a t hx error u hbind

theorem raisesIn_bind_of_ok (h : x s = (.ok a, t)) :
    (x >>= f).RaisesIn post s ↔ (f a).RaisesIn post t := by
  unfold RaisesIn
  rw [bind_of_ok h]

theorem raisesIn_bind_of_error (h : x s = (.error error, t)) :
    (x >>= f).RaisesIn post s ↔ post t := by
  unfold RaisesIn
  rw [bind_of_error h]
  constructor
  · intro hpost
    exact hpost _ _ rfl
  · intro hpost error' t' heq
    cases heq
    exact hpost

/-- A call that only reads raises in its own state. -/
theorem Silent.raisesIn_iff (hx : x.Silent) :
    x.RaisesIn post s ↔ (∃ a, x s = (.ok a, s)) ∨ post s := by
  unfold RaisesIn
  rcases h : x s with ⟨⟨error⟩ | a, t⟩
  · have hstate := hx.eq h
    subst hstate
    simp
  · have hstate := hx.eq h
    subst hstate
    simp

/-- The call writes nothing before it raises. -/
def Clean (x : Call σ α) : Prop := ∀ s, x.RaisesIn (· = s) s

theorem Silent.clean (hx : x.Silent) : x.Clean := fun _ _ _ h => hx.eq h

theorem Returns.clean (hx : x.Returns) : x.Clean := by
  intro s error t h
  obtain ⟨a, u, hok⟩ := hx s
  rw [hok] at h
  cases h

/-- What only reads may come before. -/
theorem Silent.bind_clean (hx : x.Silent) (hf : ∀ a, (f a).Clean) : (x >>= f).Clean := by
  intro s
  refine raisesIn_bind.mpr ⟨hx.clean s, fun a t h => ?_⟩
  rw [hx.eq h]
  exact hf a s

/-- What raises nothing may come after. -/
theorem Clean.bind_returns (hx : x.Clean) (hf : ∀ a t, x s = (.ok a, t) → ∃ b u, f a t = (.ok b, u)) :
    (x >>= f).RaisesIn (· = s) s := by
  refine raisesIn_bind.mpr ⟨hx s, fun a t h error u herror => ?_⟩
  obtain ⟨b, v, hok⟩ := hf a t h
  rw [hok] at herror
  cases herror

/-- What holds before a clean call holds after it exactly if it holds of the states that the call
returns in, and that is said of its value. -/
theorem Clean.holds_iff {P : σ → Prop} {Q : α → Prop} (hx : x.Clean) (hs : P s)
    (hok : ∀ a t, x s = (.ok a, t) → (P t ↔ Q a)) :
    P (x s).2 ↔ ∀ a t, x s = (.ok a, t) → Q a := by
  rcases h : x s with ⟨⟨error⟩ | a, t⟩
  · have hsame : t = s := hx s _ _ h
    rw [hsame]
    exact iff_of_true hs nofun
  · constructor
    · rintro ht _ _ heq
      cases heq
      exact (hok a t h).mp ht
    · intro hall
      exact (hok a t h).mpr (hall a t rfl)

/-- A call inside a transaction: what it wrote before it raised is undone. -/
def transaction (x : Call σ α) : Call σ α := fun s =>
  match x s with
  | (.ok a, t) => (.ok a, t)
  | (.error error, _) => (.error error, s)

theorem transaction_eq_ok : transaction x s = (.ok a, t) ↔ x s = (.ok a, t) := by
  unfold transaction
  rcases x s with ⟨⟨error⟩ | b, u⟩
  · simp
  · simp

theorem Clean.transaction : (Call.transaction x).Clean := by
  intro s error t h
  unfold Call.transaction at h
  rcases hx : x s with ⟨⟨error'⟩ | b, u⟩
  · rw [hx] at h
    cases h
    rfl
  · rw [hx] at h
    cases h

/-- The call never returns. -/
def Raises (x : Call σ α) : Prop := ∀ s, ∃ error, (x s).1 = .error error

theorem Raises.raise (error : String) : (Call.raise error : Call σ α).Raises := fun _ => ⟨error, rfl⟩

theorem Raises.of_rest (hf : ∀ a, (f a).Raises) : (x >>= f).Raises := by
  intro s
  rcases h : x s with ⟨⟨error⟩ | a, t⟩
  · rw [bind_of_error h]
    exact ⟨error, rfl⟩
  · rw [bind_of_ok h]
    exact hf a t

theorem Raises.ne_ok (hx : x.Raises) : x s ≠ (.ok a, t) := by
  obtain ⟨error, herror⟩ := hx s
  intro h
  rw [h] at herror
  cases herror

theorem Raises.raisesIn_iff (hx : x.Raises) : x.RaisesIn post s ↔ post (x s).2 := by
  obtain ⟨error, herror⟩ := hx s
  constructor
  · intro h
    exact h error _ (Prod.ext herror rfl)
  · intro h error' t heq
    rw [heq] at h
    exact h

/-- Nothing runs after a call that never returns. -/
theorem Raises.raisesIn_bind (hx : x.Raises) : (x >>= f).RaisesIn post s ↔ x.RaisesIn post s := by
  rw [Call.raisesIn_bind]
  exact and_iff_left fun _ _ h => absurd h hx.ne_ok

/-- What only reads leaves the state that it finds. -/
theorem bind_snd_of_silent (hf : ∀ a, (f a).Silent) : ((x >>= f) s).2 = (x s).2 := by
  rcases h : x s with ⟨⟨error⟩ | a, t⟩
  · rw [bind_of_error h]
  · rw [bind_of_ok h, hf a t]

theorem tryExcept_of_ok {handler : String → Call σ α} (h : x s = (.ok a, t)) :
    tryExcept x handler s = (.ok a, t) := by
  simp only [tryExcept, h]

/-- After a `try` whose handler never returns, and whose call raises, nothing runs. -/
theorem raisesIn_tryExcept_bind {handler : String → Call σ α} (h : x s = (.error error, t))
    (hhandler : (handler error).Raises) :
    (tryExcept x handler >>= f).RaisesIn post s ↔ (handler error).RaisesIn post t := by
  have hcall : tryExcept x handler s = handler error t := by simp only [tryExcept, h]
  rw [← hhandler.raisesIn_bind (f := f)]
  unfold RaisesIn
  simp only [bind, hcall]

end Call

end Python
