import Mathlib.Data.List.Nodup

/-!
# Dictionaries

A Python `dict`: one value per key, iterated in the order in which the keys were first set. It
also stands for a database table with a primary key, whose rows are read in the order in which
they were inserted.

## Main definitions

* `Dict`: the items, with distinct keys
* `Dict.get?`, `Dict.set`, `Dict.values`

## Main results

* `Dict.get?_set`: setting a key changes that key only
* `Dict.get?_ofItems_map`: of the values with one key, the last one counts
* `Dict.mem_values`: the values are those that some key has
-/

namespace Python

/-- A `dict`, as its items in insertion order. -/
structure Dict (κ α : Type) where
  items : List (κ × α)
  keys_nodup : (items.map Prod.fst).Nodup
  deriving DecidableEq

namespace Dict

variable {κ α : Type}

/-- `{}`. -/
def empty : Dict κ α := ⟨[], List.nodup_nil⟩

instance : Inhabited (Dict κ α) := ⟨empty⟩

theorem ext_items {d d' : Dict κ α} (h : d.items = d'.items) : d = d' := by
  cases d
  cases d'
  simpa using h

/-- `dict.values()`. -/
def values (d : Dict κ α) : List α := d.items.map Prod.snd

/-- `dict.keys()`. -/
def keys (d : Dict κ α) : List κ := d.items.map Prod.fst

/-- The values changed, in their places. -/
def mapValues {β : Type} (d : Dict κ α) (f : α → β) : Dict κ β where
  items := d.items.map fun item => (item.1, f item.2)
  keys_nodup := by
    rw [List.map_map]
    exact d.keys_nodup

theorem values_mapValues {β : Type} (d : Dict κ α) (f : α → β) :
    (d.mapValues f).values = d.values.map f := by
  simp only [values, mapValues, List.map_map]
  rfl

variable [DecidableEq κ]

/-- The item list of `d.get(key)`. -/
def lookup (key : κ) : List (κ × α) → Option α
  | [] => none
  | (k, v) :: items => if k = key then some v else lookup key items

/-- The item list after `d[key] = value`: a key that is there keeps its place. -/
def assign (key : κ) (value : α) : List (κ × α) → List (κ × α)
  | [] => [(key, value)]
  | (k, v) :: items => if k = key then (k, value) :: items else (k, v) :: assign key value items

theorem keys_assign (key : κ) (value : α) (items : List (κ × α)) :
    (assign key value items).map Prod.fst =
      if key ∈ items.map Prod.fst then items.map Prod.fst else items.map Prod.fst ++ [key] := by
  induction items with
  | nil => simp [assign]
  | cons item items ih =>
    obtain ⟨k, v⟩ := item
    by_cases hk : k = key
    · simp [assign, hk]
    · have hk' : key ≠ k := fun h => hk h.symm
      by_cases hmem : key ∈ items.map Prod.fst
      · rw [if_pos hmem] at ih
        simp [assign, hk, ih, hmem]
      · rw [if_neg hmem] at ih
        simp [assign, hk, hk', ih, hmem]

/-- `d.get(key)`. -/
def get? (d : Dict κ α) (key : κ) : Option α := lookup key d.items

/-- `d[key] = value`. -/
def set (d : Dict κ α) (key : κ) (value : α) : Dict κ α where
  items := assign key value d.items
  keys_nodup := by
    rw [keys_assign]
    split
    · exact d.keys_nodup
    next hmem => exact List.nodup_append_comm.mp (List.nodup_cons.mpr ⟨hmem, d.keys_nodup⟩)

/-- `dict(items)`: of the items with one key, the last one counts. -/
def ofItems (items : List (κ × α)) : Dict κ α :=
  items.foldl (fun d item => d.set item.1 item.2) empty

@[simp] theorem get?_empty (key : κ) : (empty : Dict κ α).get? key = none := rfl

theorem lookup_assign (key key' : κ) (value : α) (items : List (κ × α)) :
    lookup key' (assign key value items) =
      if key' = key then some value else lookup key' items := by
  induction items with
  | nil => simp [assign, lookup, eq_comm]
  | cons item items ih =>
    obtain ⟨k, v⟩ := item
    by_cases hk : k = key
    · subst hk
      by_cases hk' : k = key'
      · simp [assign, lookup, hk']
      · simp [assign, lookup, hk', Ne.symm hk']
    · by_cases hk' : k = key'
      · subst hk'
        simp [assign, lookup, hk]
      · simp [assign, lookup, hk, hk', ih]

/-- A new key goes to the end. -/
theorem assign_of_notMem {key : κ} {value : α} {items : List (κ × α)}
    (h : key ∉ items.map Prod.fst) : assign key value items = items ++ [(key, value)] := by
  induction items with
  | nil => rfl
  | cons item items ih =>
    obtain ⟨k, v⟩ := item
    rw [List.map_cons, List.mem_cons, not_or] at h
    rw [assign, if_neg (Ne.symm h.1), ih h.2, List.cons_append]

/-- A key that is there has its value replaced in its place. -/
theorem assign_of_mem {key : κ} {value : α} {items : List (κ × α)}
    (hnodup : (items.map Prod.fst).Nodup) (h : key ∈ items.map Prod.fst) :
    assign key value items =
      items.map fun item => if item.1 = key then (item.1, value) else item := by
  induction items with
  | nil => simp at h
  | cons item items ih =>
    obtain ⟨k, v⟩ := item
    obtain ⟨hk, hnodup⟩ := List.nodup_cons.mp hnodup
    by_cases hkey : k = key
    · subst hkey
      have hrest : ∀ item ∈ items, (if item.1 = k then (item.1, value) else item) = item := by
        intro item hitem
        have hne : item.1 ≠ k := by
          rintro rfl
          exact hk (List.mem_map.mpr ⟨item, hitem, rfl⟩)
        rw [if_neg hne]
      rw [assign, if_pos rfl, List.map_cons, if_pos rfl, List.map_congr_left hrest, List.map_id']
    · have hmem : key ∈ items.map Prod.fst := by
        rcases List.mem_cons.mp h with rfl | h
        · exact absurd rfl hkey
        · exact h
      rw [assign, if_neg hkey, ih hnodup hmem, List.map_cons, if_neg hkey]

/-- Setting a key changes the value of that key only. -/
theorem assign_assign (key : κ) (value value' : α) (items : List (κ × α)) :
    assign key value' (assign key value items) = assign key value' items := by
  induction items with
  | nil => simp [assign]
  | cons item items ih =>
    obtain ⟨k, v⟩ := item
    by_cases hk : k = key
    · simp [assign, hk]
    · simp [assign, hk, ih]

theorem items_foldl_set {d : Dict κ α} {items : List (κ × α)}
    (h : ((d.items ++ items).map Prod.fst).Nodup) :
    (items.foldl (fun d item => d.set item.1 item.2) d).items = d.items ++ items := by
  induction items generalizing d with
  | nil => simp
  | cons item items ih =>
    have hnew : item.1 ∉ d.items.map Prod.fst := by
      rw [List.map_append, List.map_cons] at h
      exact fun hmem => (List.disjoint_of_nodup_append h) hmem List.mem_cons_self
    have hset : (d.set item.1 item.2).items = d.items ++ [item] := assign_of_notMem hnew
    have happend : d.items ++ [item] ++ items = d.items ++ item :: items :=
      (List.append_cons _ _ _).symm
    rw [List.foldl_cons, ih (by rwa [hset, happend]), hset, happend]

/-- A dict is read back from its items. -/
@[simp] theorem ofItems_items (d : Dict κ α) : ofItems d.items = d :=
  ext_items (items_foldl_set (d := empty) d.keys_nodup)

/-- A key that is set twice has the second value. -/
theorem set_set (d : Dict κ α) (key : κ) (value value' : α) :
    (d.set key value).set key value' = d.set key value' :=
  ext_items (assign_assign key value value' d.items)

@[simp] theorem get?_set (d : Dict κ α) (key key' : κ) (value : α) :
    (d.set key value).get? key' = if key' = key then some value else d.get? key' :=
  lookup_assign key key' value d.items

theorem get?_foldl_set (f : α → κ) (values : List α) (d : Dict κ α) (key : κ) :
    ((values.map fun value => (f value, value)).foldl (fun d item => d.set item.1 item.2) d).get? key =
      (values.reverse.find? fun value => f value = key).or (d.get? key) := by
  -- A later item overwrites an earlier one, so the search is from the end.
  induction values generalizing d with
  | nil => rfl
  | cons value values ih =>
    rw [List.map_cons, List.foldl_cons, ih, List.reverse_cons, List.find?_append, Option.or_assoc,
      get?_set]
    by_cases hkey : f value = key
    · simp [hkey]
    · simp [hkey, Ne.symm hkey]

/-- **Of the values with one key, the last one counts.** -/
theorem get?_ofItems_map (f : α → κ) (values : List α) (key : κ) :
    (ofItems (values.map fun value => (f value, value))).get? key =
      values.reverse.find? fun value => f value = key := by
  rw [ofItems, get?_foldl_set, get?_empty, Option.or_none]

theorem get?_mapValues {β : Type} (d : Dict κ α) (f : α → β) (key : κ) :
    (d.mapValues f).get? key = (d.get? key).map f := by
  simp only [get?, mapValues]
  induction d.items with
  | nil => rfl
  | cons item items ih =>
    obtain ⟨k, v⟩ := item
    by_cases hk : k = key
    · simp [lookup, hk]
    · simp [lookup, hk, ih]

theorem assign_map {β : Type} (f : α → β) (key : κ) (value : α) (items : List (κ × α)) :
    assign key (f value) (items.map fun item => (item.1, f item.2)) =
      (assign key value items).map fun item => (item.1, f item.2) := by
  induction items with
  | nil => rfl
  | cons item items ih =>
    obtain ⟨k, v⟩ := item
    by_cases hk : k = key
    · simp [assign, hk]
    · simp [assign, hk, ih]

theorem mapValues_set {β : Type} (d : Dict κ α) (f : α → β) (key : κ) (value : α) :
    (d.set key value).mapValues f = (d.mapValues f).set key (f value) := by
  simp only [mapValues, set, assign_map]

/-- The values that only the last assignment brings. -/
theorem filter_values_set (d : Dict κ α) (key : κ) {value : α} {p : α → Bool} (hvalue : p value = true)
    (h : ∀ old ∈ d.values, p old = false) : (d.set key value).values.filter p = [value] := by
  obtain ⟨items, hnodup⟩ := d
  simp only [values, set] at h ⊢
  clear hnodup
  induction items with
  | nil => simp [assign, hvalue]
  | cons item items ih =>
    obtain ⟨k, v⟩ := item
    rw [List.map_cons, List.forall_mem_cons] at h
    by_cases hk : k = key
    · have hrest : (items.map Prod.snd).filter p = [] :=
        List.filter_eq_nil_iff.mpr fun old hold => by simp [h.2 old hold]
      rw [assign, if_pos hk, List.map_cons, List.filter_cons, if_pos hvalue, hrest]
    · have hold : ¬p v = true := by simp [h.1]
      rw [assign, if_neg hk, List.map_cons, List.filter_cons, if_neg hold, ih h.2]

/-- What a new value of a key changes in the number of values with a property. -/
theorem countP_set {d : Dict κ α} {key : κ} {old : α} (new : α) (p : α → Bool)
    (h : d.get? key = some old) :
    (d.set key new).values.countP p + (if p old then 1 else 0) =
      d.values.countP p + (if p new then 1 else 0) := by
  obtain ⟨items, hnodup⟩ := d
  simp only [values, set, get?] at h ⊢
  clear hnodup
  induction items with
  | nil => cases h
  | cons item items ih =>
    obtain ⟨k, v⟩ := item
    rw [lookup] at h
    by_cases hk : k = key
    · rw [if_pos hk] at h
      cases h
      rw [assign, if_pos hk, List.map_cons, List.map_cons, List.countP_cons, List.countP_cons]
      exact Nat.add_right_comm _ _ _
    · rw [if_neg hk] at h
      have hrest := ih h
      rw [assign, if_neg hk, List.map_cons, List.map_cons, List.countP_cons, List.countP_cons]
      omega

theorem mem_items_iff {d : Dict κ α} {key : κ} {value : α} :
    (key, value) ∈ d.items ↔ d.get? key = some value := by
  obtain ⟨items, hnodup⟩ := d
  simp only [get?]
  induction items with
  | nil => simp [lookup]
  | cons item items ih =>
    obtain ⟨k, v⟩ := item
    obtain ⟨hk, hnodup⟩ := List.nodup_cons.mp hnodup
    by_cases hkey : k = key
    · subst hkey
      have hout : (k, value) ∉ items := fun h => hk (List.mem_map.mpr ⟨_, h, rfl⟩)
      simp [lookup, hout, eq_comm]
    · simp [lookup, hkey, Ne.symm hkey, ih hnodup]

theorem mem_keys {d : Dict κ α} {key : κ} : key ∈ d.keys ↔ d.get? key ≠ none := by
  rw [Option.ne_none_iff_exists']
  simp only [keys, List.mem_map, Prod.exists, mem_items_iff]
  constructor
  · rintro ⟨_, value, hget, rfl⟩
    exact ⟨value, hget⟩
  · rintro ⟨value, hget⟩
    exact ⟨key, value, hget, rfl⟩

theorem mem_values {d : Dict κ α} {value : α} :
    value ∈ d.values ↔ ∃ key, d.get? key = some value := by
  simp only [values, List.mem_map, Prod.exists, mem_items_iff]
  constructor
  · rintro ⟨key, v, hget, rfl⟩
    exact ⟨key, hget⟩
  · rintro ⟨key, hget⟩
    exact ⟨key, value, hget, rfl⟩

end Dict

end Python
