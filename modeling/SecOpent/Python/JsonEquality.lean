import Mathlib.Data.List.Perm.Basic
import SecOpent.Python.Json

/-!
# Equality of JSON values

Two JSON values are the same when they differ in the order of the members of their objects only. A
`dict` has each key once. On values whose objects are such, being the same is having the same canonical
form, and so the same text.

## Main definitions

* `Json.Same`: equality up to the order of members
* `Json.DistinctKeys`: no object has a key twice
* `JsonValue`: a value without a repeated key

## Main results

* `Json.induction`: induction with the values inside of lists and objects
* `Json.Same.canonical_eq`: the canonical form does not depend on the order of members
* `Json.same_of_canonical_eq`: what has the same canonical form is the same
* `Json.dumps_eq_iff`: values have the same text exactly if they are the same
-/

namespace Python

namespace Json

/-- Induction on a value, with the values inside of its lists and objects. -/
@[elab_as_elim]
theorem induction {P : Json → Prop} (null : P .null) (bool : ∀ value, P (.bool value))
    (int : ∀ value, P (.int value)) (float : ∀ value, P (.float value))
    (text : ∀ value, P (.text value)) (list : ∀ items, (∀ item ∈ items, P item) → P (.list items))
    (object : ∀ fields, (∀ field ∈ fields, P field.2) → P (.object fields)) (a : Json) : P a := by
  refine Json.rec (motive_1 := P) (motive_2 := fun items => ∀ item ∈ items, P item)
    (motive_3 := fun fields => ∀ field ∈ fields, P field.2) (motive_4 := fun field => P field.2)
    null bool int float text list object (by simp) ?items (by simp) ?fields (fun _ _ h => h) a
  case items =>
    intro item items hitem hitems
    exact List.forall_mem_cons.mpr ⟨hitem, hitems⟩
  case fields =>
    intro field fields hfield hfields
    exact List.forall_mem_cons.mpr ⟨hfield, hfields⟩

/-! ## Equality up to the order of members -/

mutual

/-- Equality up to the order of members. -/
inductive Same : Json → Json → Prop
  | null : Same .null .null
  | bool (value : Bool) : Same (.bool value) (.bool value)
  | int (value : ℤ) : Same (.int value) (.int value)
  | float (value : FloatRepr) : Same (.float value) (.float value)
  | text (value : String) : Same (.text value) (.text value)
  | list {items items' : List Json} (h : SameItems items items') : Same (.list items) (.list items')
  | object {fields reordered fields' : List (String × Json)} (horder : fields.Perm reordered)
      (h : SameFields reordered fields') : Same (.object fields) (.object fields')

/-- The items of two lists are the same, one by one. -/
inductive SameItems : List Json → List Json → Prop
  | nil : SameItems [] []
  | cons {item item' : Json} {items items' : List Json} (hitem : Same item item')
      (hitems : SameItems items items') : SameItems (item :: items) (item' :: items')

/-- The members of two objects are the same, one by one. -/
inductive SameFields : List (String × Json) → List (String × Json) → Prop
  | nil : SameFields [] []
  | cons {key : String} {value value' : Json} {fields fields' : List (String × Json)}
      (hvalue : Same value value') (hfields : SameFields fields fields') :
      SameFields ((key, value) :: fields) ((key, value') :: fields')

end

mutual

/-- No object in the value has a key twice. -/
def DistinctKeys : Json → Prop
  | .list items => DistinctKeysItems items
  | .object fields => (fields.map Prod.fst).Nodup ∧ DistinctKeysFields fields
  | .null => True
  | .bool _ => True
  | .int _ => True
  | .float _ => True
  | .text _ => True

/-- No object in an item has a key twice. -/
def DistinctKeysItems : List Json → Prop
  | [] => True
  | item :: items => DistinctKeys item ∧ DistinctKeysItems items

/-- No object in the value of a member has a key twice. -/
def DistinctKeysFields : List (String × Json) → Prop
  | [] => True
  | (_, value) :: fields => DistinctKeys value ∧ DistinctKeysFields fields

end

theorem distinctKeysItems_iff {items : List Json} :
    DistinctKeysItems items ↔ ∀ item ∈ items, DistinctKeys item := by
  induction items with
  | nil => simp [DistinctKeysItems]
  | cons item items ih => simp [DistinctKeysItems, ih]

theorem distinctKeysFields_iff {fields : List (String × Json)} :
    DistinctKeysFields fields ↔ ∀ field ∈ fields, DistinctKeys field.2 := by
  induction fields with
  | nil => simp [DistinctKeysFields]
  | cons field fields ih => simp [DistinctKeysFields, ih]

theorem canonicalFields_eq_map (fields : List (String × Json)) :
    canonicalFields fields = fields.map fun field => (field.1, field.2.canonical) := by
  induction fields with
  | nil => rfl
  | cons field fields ih => rw [canonicalFields, ih, List.map_cons]

theorem keys_canonicalFields (fields : List (String × Json)) :
    (canonicalFields fields).map Prod.fst = fields.map Prod.fst := by
  rw [canonicalFields_eq_map, List.map_map]
  rfl

/-! ## Members in the order of their keys -/

theorem pairwise_sortedFields (fields : List (String × Json)) :
    (fields.insertionSort KeyLe).Pairwise KeyLe := by
  have : Std.Total KeyLe := ⟨fun a b => String.le_total a.1 b.1⟩
  have : IsTrans (String × Json) KeyLe := ⟨fun _ _ _ hab hbc => String.le_trans hab hbc⟩
  exact List.pairwise_insertionSort KeyLe fields

/-- Members with distinct keys have one order. -/
theorem sortedFields_eq {fields fields' : List (String × Json)} (hperm : fields.Perm fields')
    (hkeys : (fields.map Prod.fst).Nodup) :
    fields.insertionSort KeyLe = fields'.insertionSort KeyLe := by
  have hsorted := List.perm_insertionSort KeyLe fields
  have hsorted' := List.perm_insertionSort KeyLe fields'
  refine List.Perm.eq_of_pairwise ?_ (pairwise_sortedFields fields) (pairwise_sortedFields fields')
    (hsorted.trans (hperm.trans hsorted'.symm))
  intro a b ha hb hab hba
  -- Two members with one key are one member.
  exact List.inj_on_of_nodup_map hkeys (hsorted.mem_iff.mp ha)
    (hperm.mem_iff.mpr (hsorted'.mem_iff.mp hb)) (String.le_antisymm hab hba)

/-! ## The canonical form -/

mutual

/-- **The canonical form does not depend on the order of members.** -/
theorem Same.canonical_eq {a b : Json} (h : Same a b) (hkeys : DistinctKeys a) :
    a.canonical = b.canonical := by
  cases h with
  | null => rfl
  | bool value => rfl
  | int value => rfl
  | float value => rfl
  | text value => rfl
  | list h => rw [canonical, canonical, h.canonical_eq hkeys]
  | object horder h =>
    obtain ⟨hnodup, hfields⟩ := hkeys
    have hreordered := distinctKeysFields_iff.mpr fun field hfield =>
      distinctKeysFields_iff.mp hfields field (horder.mem_iff.mpr hfield)
    have hperm := horder.map fun field : String × Json => (field.1, field.2.canonical)
    rw [← canonicalFields_eq_map, ← canonicalFields_eq_map, h.canonical_eq hreordered] at hperm
    rw [canonical, canonical, sortedFields_eq hperm]
    rwa [keys_canonicalFields]

theorem SameItems.canonical_eq {items items' : List Json} (h : SameItems items items')
    (hkeys : DistinctKeysItems items) : canonicalItems items = canonicalItems items' := by
  cases h with
  | nil => rfl
  | cons hitem hitems =>
    rw [canonicalItems, canonicalItems, hitem.canonical_eq hkeys.1, hitems.canonical_eq hkeys.2]

theorem SameFields.canonical_eq {fields fields' : List (String × Json)}
    (h : SameFields fields fields') (hkeys : DistinctKeysFields fields) :
    canonicalFields fields = canonicalFields fields' := by
  cases h with
  | nil => rfl
  | cons hvalue hfields =>
    rw [canonicalFields, canonicalFields, hvalue.canonical_eq hkeys.1, hfields.canonical_eq hkeys.2]

end

/-- Values of lists and objects are the same when their canonical forms are, if that holds of the
values inside. -/
theorem sameFields_of_canonical_eq {fields fields' : List (String × Json)}
    (hsame : ∀ field ∈ fields, ∀ b, field.2.canonical = b.canonical → Same field.2 b)
    (h : canonicalFields fields = canonicalFields fields') : SameFields fields fields' := by
  induction fields generalizing fields' with
  | nil =>
    cases fields' with
    | nil => exact .nil
    | cons field' fields' => simp [canonicalFields] at h
  | cons field fields ih =>
    cases fields' with
    | nil => simp [canonicalFields] at h
    | cons field' fields' =>
      obtain ⟨key, value⟩ := field
      obtain ⟨key', value'⟩ := field'
      simp only [canonicalFields, List.cons.injEq, Prod.mk.injEq] at h
      obtain ⟨⟨rfl, hvalue⟩, hrest⟩ := h
      exact .cons (hsame _ List.mem_cons_self _ hvalue)
        (ih (fun field hfield => hsame field (List.mem_cons_of_mem _ hfield)) hrest)

theorem sameItems_of_canonical_eq {items items' : List Json}
    (hsame : ∀ item ∈ items, ∀ b, item.canonical = b.canonical → Same item b)
    (h : canonicalItems items = canonicalItems items') : SameItems items items' := by
  induction items generalizing items' with
  | nil =>
    cases items' with
    | nil => exact .nil
    | cons item' items' => simp [canonicalItems] at h
  | cons item items ih =>
    cases items' with
    | nil => simp [canonicalItems] at h
    | cons item' items' =>
      simp only [canonicalItems, List.cons.injEq] at h
      exact .cons (hsame _ List.mem_cons_self _ h.1)
        (ih (fun item hitem => hsame item (List.mem_cons_of_mem _ hitem)) h.2)

/-- A reordering of the canonical members is one of the members. -/
theorem exists_reordered {fields fields' : List (String × Json)}
    (h : (canonicalFields fields).Perm (canonicalFields fields')) :
    ∃ reordered, fields.Perm reordered ∧ canonicalFields reordered = canonicalFields fields' := by
  rw [canonicalFields_eq_map] at h
  obtain ⟨reordered, hmap, hperm⟩ : Relation.Comp
      (fun l l' => l = l'.map fun field : String × Json => (field.1, field.2.canonical)) List.Perm
      (canonicalFields fields') fields := by
    rw [List.eq_map_comp_perm]
    exact h.symm
  exact ⟨reordered, hperm.symm, by rw [canonicalFields_eq_map, ← hmap]⟩

/-- **What has the same canonical form is the same.** -/
theorem same_of_canonical_eq (a : Json) : ∀ b, a.canonical = b.canonical → Same a b := by
  induction a using Json.induction with
  | null =>
    intro b h
    cases b <;> simp [canonical] at h
    exact .null
  | bool value =>
    intro b h
    cases b <;> simp [canonical] at h
    exact h ▸ .bool value
  | int value =>
    intro b h
    cases b <;> simp [canonical] at h
    exact h ▸ .int value
  | float value =>
    intro b h
    cases b <;> simp [canonical] at h
    exact h ▸ .float value
  | text value =>
    intro b h
    cases b <;> simp [canonical] at h
    exact h ▸ .text value
  | list items ih =>
    intro b h
    cases b with
    | list items' =>
      rw [canonical, canonical, list.injEq] at h
      exact .list (sameItems_of_canonical_eq ih h)
    | _ => simp [canonical] at h
  | object fields ih =>
    intro b h
    cases b with
    | object fields' =>
      -- The members that become equal are brought into the order of the other object.
      obtain ⟨reordered, horder, hmembers⟩ := exists_reordered (perm_of_canonical_eq h)
      refine .object horder (sameFields_of_canonical_eq (fun field hfield => ?_) hmembers)
      exact ih field (horder.mem_iff.mpr hfield)
    | _ => simp [canonical] at h

/-- Values without repeated keys have the same text exactly if they are the same. -/
theorem dumps_eq_iff {a b : Json} (ha : DistinctKeys a) : a.dumps = b.dumps ↔ Same a b :=
  ⟨fun h => same_of_canonical_eq a b (dumps_inj h), fun h => by rw [dumps, dumps, h.canonical_eq ha]⟩

end Json

/-- A JSON value as Python has it: a `dict` has each key once. -/
structure JsonValue where
  json : Json
  distinct : json.DistinctKeys

end Python
