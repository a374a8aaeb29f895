import SecOpent.Python.Dict
import SecOpent.Python.Traversal

/-!
# Tables

The rows of a database table by their primary key, where a row is found under its own key.

## Main definitions

* `Table α key`: `session.get`, `session.merge` and `session.add`

## Main results

* `get?_put`, `insert_eq_some_iff`: writing a row changes that row only
* `get?_putAll_of_ne`, `get?_putAll_of_mem`: what is read after several rows are written
* `nodup_map_key`, `values_put`: the rows of a table in their order
* `extends_put`: a table grows by rows with new keys
-/

namespace Python

/-- The rows of a table by their key. -/
structure Table (α : Type) (key : α → String) where
  rows : Dict String α
  keyed : ∀ id row, rows.get? id = some row → key row = id

namespace Table

variable {α : Type} {key : α → String}

/-- A table without rows. -/
def empty : Table α key := ⟨.empty, by simp⟩

/-- `session.get`. -/
def get? (table : Table α key) (id : String) : Option α := table.rows.get? id

/-- `session.merge`: the row is inserted, or replaces the row with its key. -/
def put (table : Table α key) (row : α) : Table α key where
  rows := table.rows.set (key row) row
  keyed id found h := by
    rw [Dict.get?_set] at h
    split at h
    next hid =>
      cases h
      exact hid.symm
    next => exact table.keyed id found h

/-- `session.add` of a new row: `none` when the key is taken. -/
def insert (table : Table α key) (row : α) : Option (Table α key) :=
  if table.get? (key row) = none then some (table.put row) else none

@[simp] theorem get?_empty (id : String) : (empty : Table α key).get? id = none := rfl

@[simp] theorem get?_put (table : Table α key) (row : α) (id : String) :
    (table.put row).get? id = if id = key row then some row else table.get? id :=
  Dict.get?_set _ _ _ _

/-- A row that is written twice is the second one. -/
theorem put_put (table : Table α key) {row row' : α} (h : key row = key row') :
    (table.put row).put row' = table.put row' := by
  have hrows : ((table.put row).put row').rows = (table.put row').rows := by
    simp only [put, h, Dict.set_set]
  cases hput : (table.put row).put row' with
  | mk rows keyed =>
    cases hput' : table.put row' with
    | mk rows' keyed' =>
      rw [hput, hput'] at hrows
      cases hrows
      rfl

theorem key_of_get? {table : Table α key} {id : String} {row : α} (h : table.get? id = some row) :
    key row = id :=
  table.keyed id row h

theorem insert_eq_some_iff {table table' : Table α key} {row : α} :
    table.insert row = some table' ↔ table.get? (key row) = none ∧ table' = table.put row := by
  unfold insert
  split
  next h => simp [h, eq_comm]
  next h => simp [h]

theorem insert_eq_none_iff {table : Table α key} {row : α} :
    table.insert row = none ↔ table.get? (key row) ≠ none := by
  unfold insert
  split
  next h => simp [h]
  next h => simp [h]

/-- The keys of the rows, in their order. -/
theorem map_key_values (table : Table α key) :
    table.rows.values.map key = table.rows.items.map Prod.fst := by
  rw [Dict.values, List.map_map]
  refine List.map_congr_left fun item hitem => ?_
  exact table.keyed item.1 item.2 (Dict.mem_items_iff.mp hitem)

theorem nodup_map_key (table : Table α key) : (table.rows.values.map key).Nodup := by
  rw [map_key_values]
  exact table.rows.keys_nodup

/-- A row with a new key comes last. -/
theorem values_put (table : Table α key) {row : α} (h : key row ∉ table.rows.values.map key) :
    (table.put row).rows.values = table.rows.values ++ [row] := by
  rw [map_key_values] at h
  show (Dict.assign (key row) row table.rows.items).map Prod.snd = _
  rw [Dict.assign_of_notMem h, List.map_append]
  rfl

/-- Several rows are written, one after the other. -/
def putAll (table : Table α key) (rows : List α) : Table α key := rows.foldl put table

theorem get?_putAll_of_ne {table : Table α key} {rows : List α} {id : String}
    (h : ∀ row ∈ rows, key row ≠ id) : (table.putAll rows).get? id = table.get? id := by
  induction rows generalizing table with
  | nil => rfl
  | cons row rows ih =>
    obtain ⟨hne, hrest⟩ := List.forall_mem_cons.mp h
    rw [putAll, List.foldl_cons, ← putAll, ih hrest, get?_put, if_neg fun heq => hne heq.symm]

/-- Where rows are written, the last one of them is read. -/
theorem get?_putAll_of_mem (table : Table α key) {rows : List α} {row : α} (h : row ∈ rows) :
    ∃ last ∈ rows, key last = key row ∧ (table.putAll rows).get? (key row) = some last := by
  induction rows generalizing table row with
  | nil => cases h
  | cons first rows ih =>
    rw [putAll, List.foldl_cons, ← putAll]
    by_cases hlater : ∃ later ∈ rows, key later = key row
    · obtain ⟨later, hmem, hkey⟩ := hlater
      obtain ⟨last, hlast, hkeys, hget⟩ := ih (table.put first) hmem
      rw [hkey] at hkeys hget
      exact ⟨last, List.mem_cons_of_mem _ hlast, hkeys, hget⟩
    · -- No later row has the key, so the row is the first one.
      have hfirst : first = row := by
        rcases List.mem_cons.mp h with heq | hmem
        · exact heq.symm
        · exact absurd ⟨row, hmem, rfl⟩ hlater
      refine ⟨first, List.mem_cons_self, by rw [hfirst], ?_⟩
      rw [get?_putAll_of_ne fun later hmem hkey => hlater ⟨later, hmem, hkey⟩, get?_put, hfirst,
        if_pos rfl]

/-- What is read from a table that was empty is one of the rows that were written. -/
theorem mem_of_get?_putAll {rows : List α} {id : String} {row : α}
    (h : ((empty : Table α key).putAll rows).get? id = some row) : row ∈ rows := by
  by_cases hwritten : ∃ row' ∈ rows, key row' = id
  · obtain ⟨row', hrow', rfl⟩ := hwritten
    obtain ⟨last, hlast, -, hget⟩ := get?_putAll_of_mem (empty : Table α key) hrow'
    rw [hget] at h
    cases h
    exact hlast
  · have hnone : ((empty : Table α key).putAll rows).get? id = (empty : Table α key).get? id :=
      get?_putAll_of_ne fun row' hrow' hkey => hwritten ⟨row', hrow', hkey⟩
    rw [hnone] at h
    cases h

/-- Where the keys tell the rows, every row is read under its key. -/
theorem get?_putAll_of_inj (table : Table α key) {rows : List α} {row : α} (hrow : row ∈ rows)
    (hinj : ∀ row' ∈ rows, key row' = key row → row' = row) :
    (table.putAll rows).get? (key row) = some row := by
  obtain ⟨last, hlast, hkey, hget⟩ := get?_putAll_of_mem table hrow
  rw [hget, hinj last hlast hkey]

theorem mem_values_iff {table : Table α key} {row : α} :
    row ∈ table.rows.values ↔ table.get? (key row) = some row := by
  rw [Dict.mem_values]
  constructor
  · rintro ⟨id, hget⟩
    rw [table.keyed id row hget]
    exact hget
  · exact fun hget => ⟨_, hget⟩

theorem putAll_append (table : Table α key) (rows rows' : List α) :
    table.putAll (rows ++ rows') = (table.putAll rows).putAll rows' := List.foldl_append

/-- Every row of a table is a row of the other one. -/
def Extends (table table' : Table α key) : Prop :=
  ∀ id row, table.get? id = some row → table'.get? id = some row

theorem Extends.refl (table : Table α key) : table.Extends table := fun _ _ h => h

/-- A new row leaves the others where they are. -/
theorem extends_put {table : Table α key} {row : α} (h : table.get? (key row) = none) :
    table.Extends (table.put row) := by
  intro id found hfound
  rw [get?_put, if_neg]
  · exact hfound
  · rintro rfl
    rw [h] at hfound
    cases hfound

end Table

end Python
