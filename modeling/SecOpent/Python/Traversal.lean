import Mathlib.Data.List.Basic

/-!
# Loops that stop at the first error

Steps that may raise return one after another. A loop over a list whose body may raise ends when no item
raises, and raises what the first item raises that does.

## Main results

* `bind_eq_ok_iff`: how a sequence of steps returns
* `forM_eq_ok_iff`, `forM_eq_error_iff`
* `mapM_eq_ok_iff`: a traversal returns exactly if all its calls do
* `mem_of_mapM_eq_ok`: what a traversal returns is what its calls return
* `mapM_map_eq_ok`: the results of a traversal whose calls all return
* `map_of_mapM`: a traversal that may have no result
-/

namespace Python

/-- A sequence of steps returns when each of them does. -/
theorem bind_eq_ok_iff {ε α β : Type} {x : Except ε α} {f : α → Except ε β} {b : β} :
    (x >>= f) = .ok b ↔ ∃ a, x = .ok a ∧ f a = .ok b := by
  cases x with
  | error e => simp [bind, Except.bind]
  | ok a => simp [bind, Except.bind]

variable {α ε : Type} {f : α → Except ε Unit} {items : List α}

theorem forM_eq_ok_iff {u : Unit} : items.forM f = .ok u ↔ ∀ item ∈ items, f item = .ok () := by
  induction items with
  | nil => exact iff_of_true rfl (by simp)
  | cons item items ih =>
    show (f item >>= fun _ => items.forM f) = _ ↔ _
    rw [List.forall_mem_cons, ← ih]
    cases hitem : f item with
    | error e => exact iff_of_false (fun h => by cases h) (fun h => by cases h.1)
    | ok _ => exact (and_iff_right rfl).symm

/-- **The error of a loop is that of the first item that raises.** -/
theorem forM_eq_error_iff {e : ε} : items.forM f = .error e ↔
    ∃ before item after, items = before ++ item :: after ∧
      (∀ other ∈ before, f other = .ok ()) ∧ f item = .error e := by
  induction items with
  | nil =>
    refine iff_of_false (fun h => by cases h) ?_
    rintro ⟨before, item, after, h, -⟩
    exact absurd h (by simp)
  | cons head items ih =>
    show (f head >>= fun _ => items.forM f) = _ ↔ _
    constructor
    · intro h
      cases hhead : f head with
      | error e' =>
        rw [hhead] at h
        obtain rfl := Except.error.inj h
        exact ⟨[], head, items, rfl, by simp, hhead⟩
      | ok _ =>
        rw [hhead] at h
        obtain ⟨before, item, after, rfl, hbefore, hitem⟩ := ih.mp h
        exact ⟨head :: before, item, after, rfl, List.forall_mem_cons.mpr ⟨hhead, hbefore⟩, hitem⟩
    · rintro ⟨before, item, after, heq, hbefore, hitem⟩
      cases before with
      | nil =>
        obtain ⟨rfl, rfl⟩ := List.cons.inj heq
        rw [hitem]
        rfl
      | cons first before =>
        obtain ⟨rfl, rfl⟩ := List.cons.inj heq
        rw [hbefore _ List.mem_cons_self]
        exact ih.mpr ⟨before, item, after, rfl,
          fun other hother => hbefore other (List.mem_cons_of_mem _ hother), hitem⟩

/-- **A traversal returns** exactly if all its calls do, with what they return. -/
theorem mapM_eq_ok_iff {β : Type} {f : α → Except ε β} {results : List β} :
    items.mapM f = .ok results ↔
      List.Forall₂ (fun item result => f item = .ok result) items results := by
  induction items generalizing results with
  | nil => exact ⟨fun h => by cases h; exact .nil, fun h => by cases h; rfl⟩
  | cons item items ih =>
    rw [List.mapM_cons]
    cases hitem : f item with
    | error error =>
      refine iff_of_false nofun fun h => ?_
      cases h
      next hresult _ => cases hitem.symm.trans hresult
    | ok first =>
      cases hrest : items.mapM f with
      | error error =>
        refine iff_of_false nofun fun h => ?_
        cases h
        next _ hresults => cases hrest.symm.trans (ih.mpr hresults)
      | ok rest =>
        constructor
        · intro h
          cases h
          exact .cons hitem (ih.mp hrest)
        · intro h
          cases h
          next hresult hresults =>
            cases hitem.symm.trans hresult
            cases hrest.symm.trans (ih.mpr hresults)
            rfl

theorem exists_mapM_eq_ok {β : Type} {f : α → Except ε β} (h : ∀ item ∈ items, ∃ b, f item = .ok b) :
    ∃ results, items.mapM f = .ok results := by
  simp only [mapM_eq_ok_iff]
  induction items with
  | nil => exact ⟨[], .nil⟩
  | cons item items ih =>
    obtain ⟨⟨b, hb⟩, hitems⟩ := List.forall_mem_cons.mp h
    obtain ⟨results, hresults⟩ := ih hitems
    exact ⟨b :: results, .cons hb hresults⟩

theorem mem_of_mapM_eq_ok {β : Type} {f : α → Except ε β} {results : List β}
    (h : items.mapM f = .ok results) {b : β} : b ∈ results ↔ ∃ item ∈ items, f item = .ok b := by
  have hall := mapM_eq_ok_iff.mp h
  clear h
  induction hall with
  | nil => simp
  | cons hresult _ ih => simp [ih, hresult, eq_comm]

theorem exists_of_mapM_eq_ok {β : Type} {f : α → Except ε β} {results : List β}
    (h : items.mapM f = .ok results) : ∀ item ∈ items, ∃ b, f item = .ok b := by
  have hall := mapM_eq_ok_iff.mp h
  clear h
  induction hall with
  | nil => exact nofun
  | cons hresult _ ih => exact List.forall_mem_cons.mpr ⟨⟨_, hresult⟩, ih⟩

/-- A traversal whose calls all return. -/
theorem mapM_map_eq_ok {β γ : Type} {f : β → Except ε γ} {row : α → β} {read : α → γ}
    (h : ∀ item ∈ items, f (row item) = .ok (read item)) :
    (items.map row).mapM f = .ok (items.map read) := by
  induction items with
  | nil => rfl
  | cons item items ih =>
    obtain ⟨hitem, hitems⟩ := List.forall_mem_cons.mp h
    rw [List.map_cons, List.mapM_cons, hitem, ih hitems]
    rfl

/-! ## Calls that may have no result -/

theorem mapM_map_eq_some {α β γ : Type} {f : β → Option γ} {row : α → β} {read : α → γ} {xs : List α}
    (h : ∀ x ∈ xs, f (row x) = some (read x)) : (xs.map row).mapM f = some (xs.map read) := by
  induction xs with
  | nil => rfl
  | cons x xs ih =>
    obtain ⟨hx, hxs⟩ := List.forall_mem_cons.mp h
    rw [List.map_cons, List.mapM_cons, hx, ih hxs]
    rfl

theorem mapM_map_of_inverse {α β : Type} {f : β → Option α} {g : α → β} {xs : List α}
    (h : ∀ x ∈ xs, f (g x) = some x) : (xs.map g).mapM f = some xs := by
  simpa only [List.map_id'] using mapM_map_eq_some h

/-- Where a `mapM` in `Option` succeeds, it succeeds at every element. -/
theorem map_of_mapM {α β : Type} {f : α → Option β} {xs : List α} {ys : List β}
    (h : xs.mapM f = some ys) : xs.map f = ys.map some := by
  induction xs generalizing ys with
  | nil =>
    cases h
    rfl
  | cons x xs ih =>
    rw [List.mapM_cons] at h
    obtain ⟨y, hy, h⟩ := Option.bind_eq_some_iff.mp h
    obtain ⟨zs, hzs, h⟩ := Option.bind_eq_some_iff.mp h
    cases h
    rw [List.map_cons, List.map_cons, hy, ih hzs]

theorem exists_of_mapM {α β : Type} {f : α → Option β} {xs : List α} {ys : List β}
    (h : xs.mapM f = some ys) : ∀ x ∈ xs, ∃ y, f x = some y := by
  intro x hx
  have hmem : f x ∈ ys.map some := map_of_mapM h ▸ List.mem_map_of_mem hx
  obtain ⟨y, -, hy⟩ := List.mem_map.mp hmem
  exact ⟨y, hy.symm⟩

theorem exists_of_mem_mapM {α β : Type} {f : α → Option β} {xs : List α} {ys : List β}
    (h : xs.mapM f = some ys) : ∀ y ∈ ys, ∃ x ∈ xs, f x = some y := by
  intro y hy
  have hmem : some y ∈ xs.map f := (map_of_mapM h).symm ▸ List.mem_map_of_mem hy
  exact List.mem_map.mp hmem

theorem length_of_mapM {α β : Type} {f : α → Option β} {xs : List α} {ys : List β}
    (h : xs.mapM f = some ys) : ys.length = xs.length := by
  simpa using (congrArg List.length (map_of_mapM h)).symm

end Python
