import SecOpent.Oracle.DiffSemantic
import SecOpent.Python.JsonEquality

/-!
# The structural comparison of two bodies

`_structure_compatible` of `infrastructure/oracle/diff_semantic_verifier.py`. A `dict` has each key
once, so that its members are compared with the members under the same keys, whichever of the two
values comes first.

## Main results

* `structureCompatible_object`, `structureCompatible_list`: when two objects, and two lists, are
  compatible
* `structureCompatible_self`, `structureCompatible_symm`, `structureCompatible_trans`: the laws
* `structureCompatible_equivalence`: the comparison is an equivalence relation on JSON values
-/

namespace SecOpent

open Python Json

/-! ## Members and items -/

/-- A member is found under its key, where keys are distinct. -/
theorem lookup_eq_some_iff {fields : List (String × Json)} (hkeys : (fields.map Prod.fst).Nodup)
    {key : String} {value : Json} :
    Dict.lookup key fields = some value ↔ (key, value) ∈ fields :=
  (Dict.mem_items_iff (d := ⟨fields, hkeys⟩)).symm

theorem sameKeys_iff {fields fields' : List (String × Json)} :
    sameKeys fields fields' = true ↔
      ∀ key, key ∈ fields.map Prod.fst ↔ key ∈ fields'.map Prod.fst := by
  simp only [sameKeys, Bool.and_eq_true, List.all_eq_true, List.contains_iff_mem]
  constructor
  · rintro ⟨hleft, hright⟩ key
    constructor
    · intro hkey
      obtain ⟨field, hfield, rfl⟩ := List.mem_map.mp hkey
      exact hleft field hfield
    · intro hkey
      obtain ⟨field, hfield, rfl⟩ := List.mem_map.mp hkey
      exact hright field hfield
  · intro h
    exact ⟨fun field hfield => (h _).mp (List.mem_map_of_mem hfield),
      fun field hfield => (h _).mpr (List.mem_map_of_mem hfield)⟩

theorem compatibleFields_iff {fields fields' : List (String × Json)} :
    compatibleFields fields fields' = true ↔
      ∀ field ∈ fields, ∃ value', Dict.lookup field.1 fields' = some value' ∧
        structureCompatible field.2 value' = true := by
  induction fields with
  | nil => simp [compatibleFields]
  | cons field fields ih =>
    obtain ⟨key, value⟩ := field
    rw [compatibleFields, Bool.and_eq_true, ih, List.forall_mem_cons]
    refine and_congr_left fun _ => ?_
    cases Dict.lookup key fields' with
    | none => simp
    | some value' => simp

/-- Two objects are compatible if their members have the same keys, and under each of them compatible
values. -/
theorem structureCompatible_object {fields fields' : List (String × Json)}
    (hkeys' : (fields'.map Prod.fst).Nodup) :
    structureCompatible (.object fields) (.object fields') = true ↔
      (∀ key, key ∈ fields.map Prod.fst ↔ key ∈ fields'.map Prod.fst) ∧
        ∀ field ∈ fields, ∀ field' ∈ fields', field.1 = field'.1 →
          structureCompatible field.2 field'.2 = true := by
  change (sameKeys fields fields' && compatibleFields fields fields') = true ↔ _
  rw [Bool.and_eq_true, sameKeys_iff, compatibleFields_iff]
  refine and_congr_right fun hsame => ?_
  constructor
  · rintro h ⟨key, value⟩ hfield ⟨_, value'⟩ hfield' rfl
    -- The keys are distinct, so what is looked up is the member itself.
    obtain ⟨found, hfound, hcompatible⟩ := h _ hfield
    rw [(lookup_eq_some_iff hkeys').mpr hfield'] at hfound
    cases hfound
    exact hcompatible
  · intro h field hfield
    obtain ⟨field', hfield', hkey⟩ := List.mem_map.mp ((hsame _).mp (List.mem_map_of_mem hfield))
    exact ⟨field'.2, (lookup_eq_some_iff hkeys').mpr (hkey ▸ hfield'), h field hfield field' hfield'
      hkey.symm⟩

/-- Two lists are compatible if they are of one length, and have compatible items in the same places. -/
theorem structureCompatible_list {items items' : List Json} :
    structureCompatible (.list items) (.list items') = true ↔
      items.length = items'.length ∧ ∀ i (h : i < items.length) (h' : i < items'.length),
        structureCompatible items[i] items'[i] = true := by
  have hitems : compatibleItems items items' = true ↔
      ∀ i (h : i < items.length) (h' : i < items'.length),
        structureCompatible items[i] items'[i] = true := by
    induction items generalizing items' with
    | nil => simp [compatibleItems]
    | cons item items ih =>
      cases items' with
      | nil => simp [compatibleItems]
      | cons item' items' =>
        rw [compatibleItems, Bool.and_eq_true, ih]
        constructor
        · rintro ⟨hhead, htail⟩ i h h'
          cases i with
          | zero => exact hhead
          | succ i => exact htail i (Nat.lt_of_succ_lt_succ h) (Nat.lt_of_succ_lt_succ h')
        · intro h
          exact ⟨h 0 (Nat.succ_pos _) (Nat.succ_pos _),
            fun i hi hi' => h (i + 1) (Nat.succ_lt_succ hi) (Nat.succ_lt_succ hi')⟩
  change (items.length == items'.length && compatibleItems items items') = true ↔ _
  rw [Bool.and_eq_true, beq_iff_eq, hitems]

/-! ## Leaves -/

/-- A value that is compatible with an object is an object. -/
theorem eq_object_of_compatible {fields : List (String × Json)} {b : Json}
    (h : structureCompatible (.object fields) b = true) : ∃ fields', b = .object fields' := by
  cases b with
  | object fields' => exact ⟨fields', rfl⟩
  | _ => cases h

/-- A value that is compatible with a list is a list. -/
theorem eq_list_of_compatible {items : List Json} {b : Json}
    (h : structureCompatible (.list items) b = true) : ∃ items', b = .list items' := by
  cases b with
  | list items' => exact ⟨items', rfl⟩
  | _ => cases h

/-! ## The laws -/

theorem structureCompatible_self {a : Json} (ha : a.DistinctKeys) :
    structureCompatible a a = true := by
  induction a using Json.induction with
  | null => rfl
  | bool value => rfl
  | int value => rfl
  | float value => rfl
  | text value => rfl
  | list items ih =>
    rw [structureCompatible_list]
    refine ⟨rfl, fun i h _ => ?_⟩
    exact ih _ (List.getElem_mem h) (distinctKeysItems_iff.mp ha _ (List.getElem_mem h))
  | object fields ih =>
    obtain ⟨hkeys, hvalues⟩ := ha
    rw [structureCompatible_object hkeys]
    refine ⟨fun key => Iff.rfl, fun field hfield field' hfield' hkey => ?_⟩
    -- Members with one key are one member.
    obtain rfl := List.inj_on_of_nodup_map hkeys hfield hfield' hkey
    exact ih field hfield (distinctKeysFields_iff.mp hvalues field hfield)

theorem structureCompatible_symm {a b : Json} (ha : a.DistinctKeys) (hb : b.DistinctKeys)
    (h : structureCompatible a b = true) : structureCompatible b a = true := by
  induction a using Json.induction generalizing b with
  | list items ih =>
    obtain ⟨items', rfl⟩ := eq_list_of_compatible h
    rw [structureCompatible_list] at h ⊢
    refine ⟨h.1.symm, fun i hi' hi => ?_⟩
    exact ih _ (List.getElem_mem hi) (distinctKeysItems_iff.mp ha _ (List.getElem_mem hi))
      (distinctKeysItems_iff.mp hb _ (List.getElem_mem hi')) (h.2 i hi hi')
  | object fields ih =>
    obtain ⟨fields', rfl⟩ := eq_object_of_compatible h
    obtain ⟨hkeys, hvalues⟩ := ha
    obtain ⟨hkeys', hvalues'⟩ := hb
    rw [structureCompatible_object hkeys'] at h
    rw [structureCompatible_object hkeys]
    refine ⟨fun key => (h.1 key).symm, fun field' hfield' field hfield hkey => ?_⟩
    exact ih field hfield (distinctKeysFields_iff.mp hvalues field hfield)
      (distinctKeysFields_iff.mp hvalues' field' hfield') (h.2 field hfield field' hfield' hkey.symm)
  | _ => cases b <;> first | rfl | cases h

theorem structureCompatible_trans {a b c : Json} (ha : a.DistinctKeys) (hb : b.DistinctKeys)
    (hc : c.DistinctKeys) (hab : structureCompatible a b = true)
    (hbc : structureCompatible b c = true) : structureCompatible a c = true := by
  induction a using Json.induction generalizing b c with
  | list items ih =>
    obtain ⟨items', rfl⟩ := eq_list_of_compatible hab
    obtain ⟨items'', rfl⟩ := eq_list_of_compatible hbc
    rw [structureCompatible_list] at hab hbc ⊢
    refine ⟨hab.1.trans hbc.1, fun i hi hi'' => ?_⟩
    have hi' : i < items'.length := hab.1 ▸ hi
    exact ih _ (List.getElem_mem hi) (distinctKeysItems_iff.mp ha _ (List.getElem_mem hi))
      (distinctKeysItems_iff.mp hb _ (List.getElem_mem hi'))
      (distinctKeysItems_iff.mp hc _ (List.getElem_mem hi'')) (hab.2 i hi hi') (hbc.2 i hi' hi'')
  | object fields ih =>
    obtain ⟨fields', rfl⟩ := eq_object_of_compatible hab
    obtain ⟨fields'', rfl⟩ := eq_object_of_compatible hbc
    obtain ⟨hkeys, hvalues⟩ := ha
    obtain ⟨hkeys', hvalues'⟩ := hb
    obtain ⟨hkeys'', hvalues''⟩ := hc
    rw [structureCompatible_object hkeys'] at hab
    rw [structureCompatible_object hkeys''] at hbc ⊢
    refine ⟨fun key => (hab.1 key).trans (hbc.1 key), fun field hfield field'' hfield'' hkey => ?_⟩
    -- The member in between has the same key.
    obtain ⟨field', hfield', hkey'⟩ :=
      List.mem_map.mp ((hab.1 field.1).mp (List.mem_map_of_mem hfield))
    exact ih field hfield (distinctKeysFields_iff.mp hvalues field hfield)
      (distinctKeysFields_iff.mp hvalues' field' hfield')
      (distinctKeysFields_iff.mp hvalues'' field'' hfield'')
      (hab.2 field hfield field' hfield' hkey'.symm)
      (hbc.2 field' hfield' field'' hfield'' (hkey'.trans hkey))
  | _ =>
    cases b <;> cases hab
    all_goals cases c <;> first | rfl | cases hbc

/-- **The structural comparison is an equivalence relation on JSON values**, so it does not depend on
which of two values comes first. -/
theorem structureCompatible_equivalence :
    (Equivalence fun a b : JsonValue => structureCompatible a.json b.json = true) ∧
      ∀ a b : JsonValue, structureCompatible a.json b.json = structureCompatible b.json a.json := by
  refine ⟨⟨fun a => structureCompatible_self a.distinct,
    fun {a b} => structureCompatible_symm a.distinct b.distinct,
    fun {a b c} => structureCompatible_trans a.distinct b.distinct c.distinct⟩, fun a b => ?_⟩
  rw [Bool.eq_iff_iff]
  exact ⟨structureCompatible_symm a.distinct b.distinct,
    structureCompatible_symm b.distinct a.distinct⟩

end SecOpent
