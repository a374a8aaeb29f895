import SecOpent.Python.Effects
import SecOpent.ReasoningLoop.States

/-!
# What the operations on a loop do

The operations of `application/reasoning_loop/orchestrator.py` and `pause_control.py` read the record
of a loop, do what their collaborators and the record say, and write the whole record back. Here an
operation is a function of the record that it read and of the answers of its collaborators: its
effects in their order, and what it returns or raises.

## Main definitions

* `LoopEvent`, `LoopEffect`, `LoopError`: what an operation does, and raises
* `LoopActing α`: an operation
* `Saves P`: the operation saves nothing but states that satisfy `P`
* `WritesIf c`: the operation saves a record if `c` holds, and does nothing otherwise
* `LoopStore`, `LoopStore.perform`: the repositories, and what an operation leaves in them

## Main results

* `perform_cases`: after an operation the record of a loop is what it was, or what was saved
* `save_mem_carriedOut_iff`: a record is saved exactly if the events of the operation are recorded
-/

namespace SecOpent

open Python

/-! ## Effects -/

/-- An event for `AuditRecorder.record`; its resource is the loop. -/
structure LoopEvent where
  actor : String
  action : String
  resourceId : String
  payload : List (String × Json)

/-- `step_repo.add`, `audit.record` and `state_repo.save`. -/
inductive LoopEffect
  | addStep (step : LoopStep)
  | record (event : LoopEvent)
  | save (state : LoopState)

/-- The exceptions of the operations, with their messages. -/
inductive LoopError
  | loopNotFound (message : String)
  | alreadyTerminal (message : String)
  | lookup (message : String)
  | domain (message : String)
  | approvalRejected (message : String)
  | approvalRequired (message : String)
  | pauseBudgetExceeded (message : String)
  /-- What a collaborator raises. -/
  | raised (message : String)
  deriving DecidableEq

/-- The effect saves a record. -/
def LoopEffect.isSave : LoopEffect → Bool
  | .save _ => true
  | _ => false

/-- What an operation does, and returns or raises. -/
abbrev LoopActing (α : Type) := Acting LoopError LoopEffect α

/-- The operation saves nothing but states that satisfy `P`. -/
def Saves {α : Type} (P : LoopState → Prop) (x : LoopActing α) : Prop :=
  x.Only fun e => ∀ state, e = .save state → P state

section Effects

variable {α β : Type} {P Q : LoopState → Prop} {x : LoopActing α} {f : α → LoopActing β}

/-- `state_repo.save`. -/
def save (state : LoopState) : LoopActing Unit := .effect (.save state)

/-- `step_repo.add`. -/
def addStep (step : LoopStep) : LoopActing Unit := .effect (.addStep step)

/-- `audit.record` on a loop. -/
def record (actor action : String) (loopId : LoopId) (payload : List (String × Json)) :
    LoopActing Unit :=
  .effect (.record ⟨actor, action, loopId.value, payload⟩)

theorem Saves.save {state : LoopState} (h : P state) : Saves P (save state) :=
  Acting.Only.effect fun _ heq => LoopEffect.save.inj heq ▸ h

theorem Saves.addStep (step : LoopStep) : Saves P (addStep step) :=
  Acting.Only.effect fun _ heq => by cases heq

theorem Saves.record (actor action : String) (loopId : LoopId) (payload : List (String × Json)) :
    Saves P (record actor action loopId payload) :=
  Acting.Only.effect fun _ heq => by cases heq

theorem Saves.bind (hx : Saves P x) (hf : ∀ a, x.result = .ok a → Saves P (f a)) :
    Saves P (x >>= f) :=
  Acting.Only.bind hx hf

theorem Saves.ite {c : Prop} [Decidable c] {y : LoopActing α} (hx : c → Saves P x)
    (hy : ¬c → Saves P y) : Saves P (if c then x else y) :=
  Acting.Only.ite hx hy

theorem Saves.mono (h : Saves P x) (hPQ : ∀ state, P state → Q state) : Saves Q x :=
  fun e he state heq => hPQ state (h e he state heq)

/-- The operation goes on to its end, and saves a record. -/
def Writes (x : LoopActing α) : Prop := (∃ a, x.result = .ok a) ∧ ∃ state, .save state ∈ x.effects

/-- The operation saves a record if `c` holds, and does nothing otherwise. -/
def WritesIf (c : Prop) (x : LoopActing α) : Prop := (c → Writes x) ∧ (¬c → x.effects = [])

variable {c : Prop}

theorem Writes.bind_left (hx : Writes x) (hf : ∀ a, ∃ b, (f a).result = .ok b) :
    Writes (x >>= f) := by
  obtain ⟨⟨a, ha⟩, state, hstate⟩ := hx
  rw [Acting.bind_of_ok ha]
  exact ⟨hf a, state, List.mem_append_left _ hstate⟩

theorem Writes.bind_right (hx : ∃ a, x.result = .ok a) (hf : ∀ a, Writes (f a)) :
    Writes (x >>= f) := by
  obtain ⟨a, ha⟩ := hx
  obtain ⟨hresult, state, hstate⟩ := hf a
  rw [Acting.bind_of_ok ha]
  exact ⟨hresult, state, List.mem_append_right _ hstate⟩

theorem Writes.writesIf (h : Writes x) (hc : c) : WritesIf c x :=
  ⟨fun _ => h, fun hnot => absurd hc hnot⟩

theorem WritesIf.raise (error : LoopError) (hc : ¬c) : WritesIf c (.raise error : LoopActing α) :=
  ⟨fun h => absurd h hc, fun _ => rfl⟩

theorem WritesIf.congr {c' : Prop} (h : WritesIf c x) (hc : c ↔ c') : WritesIf c' x :=
  ⟨fun hc' => h.1 (hc.mpr hc'), fun hnot => h.2 fun hc' => hnot (hc.mp hc')⟩

theorem WritesIf.ite {b : Prop} [Decidable b] {y : LoopActing α} (hx : b → WritesIf c x)
    (hy : ¬b → WritesIf c y) : WritesIf c (if b then x else y) := by
  split
  · exact hx ‹b›
  · exact hy ‹¬b›

/-- A collaborator is asked first. -/
theorem WritesIf.ofExcept_bind {answer : Except LoopError α} {c : α → Prop}
    (h : ∀ a, answer = .ok a → WritesIf (c a) (f a)) :
    WritesIf (∃ a, answer = .ok a ∧ c a) (.ofExcept answer >>= f) := by
  cases answer with
  | error error =>
    refine ⟨?_, fun _ => rfl⟩
    rintro ⟨a, ha, -⟩
    cases ha
  | ok a =>
    have hbind : (.ofExcept (.ok a) >>= f : LoopActing β) = ⟨(f a).effects, (f a).result⟩ := rfl
    rw [hbind]
    constructor
    · rintro ⟨a', ha', hc⟩
      cases ha'
      exact (h a rfl).1 hc
    · intro hnot
      exact (h a rfl).2 fun hc => hnot ⟨a, rfl, hc⟩

end Effects

/-! ## Repositories -/

/-- The repositories of the loops and their steps, and the recorded events. Both implementations of
the state repository replace the whole record of a loop, without a look at what it was: `merge` reads
the row again before it writes, since nothing holds the row that was read first. -/
structure LoopStore where
  states : Dict String LoopState := .empty
  steps : List LoopStep := []
  events : List LoopEvent := []
  keyed : ∀ id state, states.get? id = some state → state.loopId.value = id

namespace LoopStore

/-- The record of a loop. -/
def get? (store : LoopStore) (loopId : LoopId) : Option LoopState := store.states.get? loopId.value

/-- One effect. -/
def apply (store : LoopStore) : LoopEffect → LoopStore
  | .addStep step => { store with steps := store.steps ++ [step] }
  | .record event => { store with events := store.events ++ [event] }
  | .save state =>
    { store with
      states := store.states.set state.loopId.value state
      keyed := fun id found h => by
        rw [Dict.get?_set] at h
        split at h
        next hid =>
          cases h
          exact hid.symm
        next => exact store.keyed id found h }

/-- The audit recorder accepts an effect; the repositories accept all. -/
def accepted (accepts : LoopEvent → Bool) : LoopEffect → Bool
  | .record event => accepts event
  | _ => true

/-- What is done of an operation. The audit recorder may raise, and then the rest is not done; in a
unit of work (`session`) nothing is left of an operation that raises. -/
def carriedOut {α : Type} (session : Bool) (accepts : LoopEvent → Bool) (x : LoopActing α) :
    List LoopEffect :=
  if session && !(x.result.isOk && x.effects.all (accepted accepts)) then []
  else x.effects.takeWhile (accepted accepts)

/-- What an operation leaves. -/
def perform {α : Type} (session : Bool) (accepts : LoopEvent → Bool) (store : LoopStore)
    (x : LoopActing α) : LoopStore :=
  (carriedOut session accepts x).foldl apply store

/-- The audit recorder accepts the events that come before the record is saved; in a unit of work it
accepts all. -/
def Recorded {α : Type} (session : Bool) (accepts : LoopEvent → Bool) (x : LoopActing α) : Prop :=
  (if session then x.effects else x.effects.takeWhile fun e => !e.isSave).all (accepted accepts) = true

variable {store : LoopStore}

theorem loopId_of_get? {loopId : LoopId} {state : LoopState} (h : store.get? loopId = some state) :
    state.loopId = loopId := by
  have hvalue := store.keyed _ _ h
  cases hstate : state.loopId
  cases loopId
  simp_all

theorem foldl_apply_cases (effects : List LoopEffect) (loopId : LoopId) :
    (effects.foldl apply store).get? loopId = store.get? loopId ∨
      ∃ state, .save state ∈ effects ∧ state.loopId = loopId ∧
        (effects.foldl apply store).get? loopId = some state := by
  induction effects generalizing store with
  | nil => exact .inl rfl
  | cons e effects ih =>
    rw [List.foldl_cons]
    rcases @ih (store.apply e) with h | ⟨state, hmem, hid, h⟩
    · cases e with
      | addStep step => exact .inl h
      | record event => exact .inl h
      | save state =>
        by_cases hid : loopId.value = state.loopId.value
        · have hget : (store.apply (.save state)).get? loopId = some state := by
            simp [LoopStore.get?, apply, hid]
          exact .inr ⟨state, List.mem_cons_self, (loopId_of_get? (h.trans hget)), h.trans hget⟩
        · have hget : (store.apply (.save state)).get? loopId = store.get? loopId := by
            simp [LoopStore.get?, apply, hid]
          exact .inl (h.trans hget)
    · exact .inr ⟨state, List.mem_cons_of_mem _ hmem, hid, h⟩

/-- A record that was saved is there, unless a later one was saved. -/
theorem get?_foldl_of_save {effects : List LoopEffect} {loopId : LoopId} {saved : LoopState}
    (hmem : .save saved ∈ effects) (hid : saved.loopId = loopId) :
    ∃ state, .save state ∈ effects ∧ (effects.foldl apply store).get? loopId = some state := by
  obtain ⟨before, after, rfl⟩ := List.append_of_mem hmem
  have hget : ((before.foldl apply store).apply (.save saved)).get? loopId = some saved := by
    simp [LoopStore.get?, apply, hid]
  rw [List.foldl_append, List.foldl_cons]
  rcases foldl_apply_cases after loopId with h | ⟨state, hstate, -, h⟩
  · exact ⟨saved, by simp, h.trans hget⟩
  · exact ⟨state, by simp [hstate], h⟩

theorem mem_of_mem_carriedOut {α : Type} {session : Bool} {accepts : LoopEvent → Bool}
    {x : LoopActing α} {e : LoopEffect} (h : e ∈ carriedOut session accepts x) : e ∈ x.effects := by
  rw [carriedOut] at h
  split at h
  · cases h
  · exact (List.takeWhile_sublist _).subset h

/-- A record is saved exactly if all that comes before is accepted. -/
theorem save_mem_takeWhile_iff {accepts : LoopEvent → Bool} {effects : List LoopEffect}
    (h : ∃ state, .save state ∈ effects) :
    (∃ state, .save state ∈ effects.takeWhile (accepted accepts)) ↔
      (effects.takeWhile fun e => !e.isSave).all (accepted accepts) = true := by
  induction effects with
  | nil => simp at h
  | cons e effects ih =>
    cases e with
    | save state => exact ⟨fun _ => rfl, fun _ => ⟨state, by simp [List.takeWhile_cons, accepted]⟩⟩
    | addStep step =>
      have hrest := ih (by simpa using h)
      simpa [List.takeWhile_cons, accepted, LoopEffect.isSave] using hrest
    | record event =>
      have hrest := ih (by simpa using h)
      cases haccepts : accepts event with
      | true => simpa [List.takeWhile_cons, accepted, LoopEffect.isSave, haccepts] using hrest
      | false => simp [accepted, LoopEffect.isSave, haccepts]

/-- **An operation that saves a record gets to save it** exactly if its events are recorded. -/
theorem save_mem_carriedOut_iff {α : Type} {session : Bool} {accepts : LoopEvent → Bool}
    {x : LoopActing α} (h : Writes x) :
    (∃ state, .save state ∈ carriedOut session accepts x) ↔ Recorded session accepts x := by
  obtain ⟨⟨a, ha⟩, hsave⟩ := h
  have hok : x.result.isOk = true := by rw [ha]; rfl
  cases session with
  | false => simpa [carriedOut, Recorded] using save_mem_takeWhile_iff hsave
  | true =>
    rw [carriedOut, hok, Recorded]
    cases hall : x.effects.all (accepted accepts) with
    | true =>
      have hwhole : x.effects.takeWhile (accepted accepts) = x.effects := by
        rw [List.takeWhile_eq_self_iff]
        exact List.all_eq_true.mp hall
      simpa [hwhole, hall] using hsave
    | false => simp [hall]

/-- **After an operation** the record of a loop is what it was, or what the operation saved. -/
theorem perform_cases {α : Type} (session : Bool) (accepts : LoopEvent → Bool) (x : LoopActing α)
    (loopId : LoopId) :
    (store.perform session accepts x).get? loopId = store.get? loopId ∨
      ∃ state, .save state ∈ carriedOut session accepts x ∧ state.loopId = loopId ∧
        (store.perform session accepts x).get? loopId = some state :=
  foldl_apply_cases _ _

end LoopStore

/-- An operation gets to save a record exactly if it is to, and its events are recorded. -/
theorem WritesIf.save_mem_carriedOut_iff {α : Type} {c : Prop} {session : Bool}
    {accepts : LoopEvent → Bool} {x : LoopActing α} (h : WritesIf c x) :
    (∃ state, .save state ∈ LoopStore.carriedOut session accepts x) ↔
      c ∧ LoopStore.Recorded session accepts x := by
  constructor
  · intro hsave
    have hc : c := by
      by_contra hnot
      obtain ⟨state, hstate⟩ := hsave
      have hmem := LoopStore.mem_of_mem_carriedOut hstate
      rw [h.2 hnot] at hmem
      cases hmem
    exact ⟨hc, (LoopStore.save_mem_carriedOut_iff (h.1 hc)).mp hsave⟩
  · rintro ⟨hc, hrecorded⟩
    exact (LoopStore.save_mem_carriedOut_iff (h.1 hc)).mpr hrecorded

end SecOpent
