import Mathlib.Data.List.Forall2
import Mathlib.Data.List.NodupEquivFin
import Mathlib.Order.Fin.Basic

/-!
# Greedy matching along a list

Links are matched with items of a list, in their order: each link takes the first item after the last
one taken that satisfies it. If any increasing choice of items satisfies the links, the first items do.

## Main definitions

* `embeds`: the links are matched one after the other, and the first that has no item ends the search
* `bindings`: what each link is matched with, where a link without an item is passed over
* `firstIndex`: the same search by positions, as a loop over `range(position, len(items))` makes it

## Main results

* `embeds_iff_increasing`: the search succeeds exactly if there is an increasing choice
* `isSome_bindings_iff`: every link is bound exactly if the search succeeds
* `firstIndex_eq`: a search by positions finds what the search of the rest of the list finds
-/

namespace Matching

variable {α β γ : Type*}

/-- The first item that satisfies `p`, with the items after it. -/
def firstMatch (p : α → Bool) (items : List α) : Option (α × List α) :=
  match items.dropWhile fun item => !p item with
  | [] => none
  | item :: rest => some (item, rest)

/-- Each link takes the first item left that satisfies it, until one has none. -/
def embeds (p : β → α → Bool) : List β → List α → Bool
  | [], _ => true
  | link :: links, items =>
    match firstMatch (p link) items with
    | some (_, rest) => embeds p links rest
    | none => false

/-- Each link takes the first item left that satisfies it, or none. -/
def bindings (p : β → α → Bool) : List β → List α → List (Option α)
  | [], _ => []
  | link :: links, items =>
    match firstMatch (p link) items with
    | some (item, rest) => some item :: bindings p links rest
    | none => none :: bindings p links items

/-- The first position from `position` on whose item satisfies `p`, with that item. -/
def firstIndex (p : α → Bool) (items : List α) (position : ℕ) : Option (ℕ × α) :=
  ((items.zipIdx.drop position).find? fun entry => p entry.1).map fun entry => (entry.2, entry.1)

/-- The links are satisfied by items in an increasing order. -/
def Increasing (p : β → α → Bool) (links : List β) (items : List α) : Prop :=
  ∃ position : Fin links.length → Fin items.length, StrictMono position ∧
    ∀ i, p (links.get i) (items.get (position i)) = true

section Spec

variable {p : β → α → Bool} {links : List β} {items rest : List α} {item : α}

/-! ## The first item -/

theorem firstMatch_nil (q : α → Bool) : firstMatch q [] = none := rfl

theorem firstMatch_cons (q : α → Bool) (item : α) (items : List α) :
    firstMatch q (item :: items) = if q item then some (item, items) else firstMatch q items := by
  cases hitem : q item with
  | true => simp [firstMatch, hitem]
  | false => simp [firstMatch, hitem]

theorem firstMatch_mem {q : α → Bool} (h : firstMatch q items = some (item, rest)) :
    q item = true ∧ item ∈ items ∧ rest ⊆ items := by
  induction items with
  | nil => cases h
  | cons first items ih =>
    rw [firstMatch_cons] at h
    split at h
    next hfirst =>
      obtain ⟨rfl, rfl⟩ := Prod.mk.inj (Option.some.inj h)
      exact ⟨hfirst, List.mem_cons_self, List.subset_cons_self _ _⟩
    next =>
      obtain ⟨hitem, hmem, hrest⟩ := ih h
      exact ⟨hitem, List.mem_cons_of_mem _ hmem, fun x hx => List.mem_cons_of_mem _ (hrest hx)⟩

/-- The search by positions in a list whose first items, `before`, are counted already. -/
theorem find?_zipIdx_drop (q : α → Bool) (before items : List α) (position : ℕ) :
    (((items.zipIdx before.length).drop position).find? fun entry => q entry.1).map
        (fun entry => (entry.1, (before ++ items).drop (entry.2 + 1))) =
      firstMatch q (items.drop position) := by
  induction items generalizing before position with
  | nil => simp [firstMatch_nil]
  | cons item items ih =>
    have hbefore : before ++ item :: items = (before ++ [item]) ++ items := by simp
    have hlength : before.length + 1 = (before ++ [item]).length := by simp
    cases position with
    | succ position =>
      rw [List.zipIdx_cons, List.drop_succ_cons, List.drop_succ_cons, hbefore, hlength]
      exact ih (before ++ [item]) position
    | zero =>
      rw [List.zipIdx_cons, List.drop_zero, List.drop_zero, firstMatch_cons, List.find?_cons]
      cases hitem : q item with
      | true => simp
      | false =>
        rw [hbefore, hlength, if_neg Bool.false_ne_true]
        exact ih (before ++ [item]) 0

/-- Nothing is found exactly if no item satisfies. -/
theorem firstMatch_eq_none_iff {q : α → Bool} :
    firstMatch q items = none ↔ ∀ item ∈ items, ¬q item := by
  induction items with
  | nil => simp [firstMatch_nil]
  | cons first items ih =>
    rw [firstMatch_cons, List.forall_mem_cons, ← ih]
    cases hfirst : q first with
    | true => simp
    | false => simp

/-- **A search by positions finds what the search of the rest of the list finds.** -/
theorem firstIndex_eq (q : α → Bool) (items : List α) (position : ℕ) :
    (firstIndex q items position).map (fun found => (found.2, items.drop (found.1 + 1))) =
      firstMatch q (items.drop position) := by
  rw [firstIndex, Option.map_map]
  exact find?_zipIdx_drop q [] items position

/-! ## Matching -/

/-- The first item of a list is taken if it satisfies the link, and passed over otherwise. -/
theorem embeds_cons_cons (link : β) (links : List β) (item : α) (items : List α) :
    embeds p (link :: links) (item :: items) =
      if p link item then embeds p links items else embeds p (link :: links) items := by
  rw [embeds, firstMatch_cons]
  cases hitem : p link item with
  | true => rfl
  | false => rfl

theorem embeds_nil (link : β) (links : List β) : embeds p (link :: links) [] = false := rfl

/-- An item more does no harm, if the other links can do without the first of them. -/
theorem embeds_cons_of_tail {first : α} (htail : ∀ link links, embeds p (link :: links) items = true →
    embeds p links items = true) (h : embeds p links items = true) :
    embeds p links (first :: items) = true := by
  cases links with
  | nil => rfl
  | cons link links =>
    rw [embeds_cons_cons]
    split
    · exact htail link links h
    · exact h

/-- A link less leaves more to the others. -/
theorem embeds_tail : ∀ (link : β) (links : List β), embeds p (link :: links) items = true →
    embeds p links items = true := by
  induction items with
  | nil =>
    intro link links h
    rw [embeds_nil] at h
    cases h
  | cons item items ih =>
    intro link links h
    rw [embeds_cons_cons] at h
    split at h
    · exact embeds_cons_of_tail ih h
    · exact embeds_cons_of_tail ih (ih link links h)

/-- **Greedy matching is complete**: the first items leave the most to the links that follow. -/
theorem embeds_iff_sublistForall₂ :
    embeds p links items = true ↔
      List.SublistForall₂ (fun link item => p link item = true) links items := by
  constructor
  · intro h
    induction items generalizing links with
    | nil =>
      cases links with
      | nil => exact .nil
      | cons link links => cases h
    | cons item items ih =>
      cases links with
      | nil => exact .nil
      | cons link links =>
        rw [embeds_cons_cons] at h
        split at h
        next hitem => exact .cons hitem (ih h)
        next => exact .cons_right (ih h)
  · intro h
    induction h with
    | nil => rfl
    | cons hitem _ ih => rw [embeds_cons_cons, if_pos hitem, ih]
    | cons_right _ ih => exact embeds_cons_of_tail embeds_tail ih

/-- A choice of items in their order is an increasing choice of positions. -/
theorem sublistForall₂_iff_increasing :
    List.SublistForall₂ (fun link item => p link item = true) links items ↔
      Increasing p links items := by
  rw [List.sublistForall₂_iff]
  constructor
  · rintro ⟨chosen, hchosen, hsub⟩
    obtain ⟨position, hposition⟩ := List.sublist_iff_exists_fin_orderEmbedding_get_eq.mp hsub
    have hlength := hchosen.length_eq
    refine ⟨fun i => position (Fin.cast hlength i), fun i j hij => position.strictMono hij, ?_⟩
    intro i
    rw [← hposition]
    exact (List.forall₂_iff_get.mp hchosen).2 i.1 i.2 (hlength ▸ i.2)
  · rintro ⟨position, hmono, hlinks⟩
    refine ⟨List.ofFn fun i => items.get (position i), ?_, ?_⟩
    · refine List.forall₂_iff_get.mpr ⟨by simp, fun i hi hi' => ?_⟩
      simpa using hlinks ⟨i, hi⟩
    · refine List.sublist_iff_exists_fin_orderEmbedding_get_eq.mpr
        ⟨OrderEmbedding.ofStrictMono
          (fun i => position (Fin.cast (by simp) i)) fun i j hij => hmono hij, fun i => ?_⟩
      exact List.get_ofFn _ i

/-- **The search succeeds exactly if there is an increasing choice.** -/
theorem embeds_iff_increasing : embeds p links items = true ↔ Increasing p links items :=
  embeds_iff_sublistForall₂.trans sublistForall₂_iff_increasing

theorem firstMatch_map (q : γ → Bool) (f : α → γ) (items : List α) :
    firstMatch q (items.map f) =
      (firstMatch (fun item => q (f item)) items).map fun found => (f found.1, found.2.map f) := by
  induction items with
  | nil => rfl
  | cons item items ih =>
    rw [List.map_cons, firstMatch_cons, firstMatch_cons, ih]
    split
    · rfl
    · rfl

/-- Only what the links ask about counts. -/
theorem embeds_map (q : β → γ → Bool) (f : α → γ) (links : List β) (items : List α) :
    embeds q links (items.map f) = embeds (fun link item => q link (f item)) links items := by
  induction links generalizing items with
  | nil => rfl
  | cons link links ih =>
    rw [embeds, embeds, firstMatch_map]
    cases firstMatch (fun item => q link (f item)) items with
    | none => rfl
    | some found => exact ih found.2

/-! ## Bindings -/

theorem length_bindings (links : List β) (items : List α) :
    (bindings p links items).length = links.length := by
  induction links generalizing items with
  | nil => rfl
  | cons link links ih =>
    rw [bindings]
    split
    · rw [List.length_cons, List.length_cons, ih]
    · rw [List.length_cons, List.length_cons, ih]

/-- What is bound is an item. -/
theorem mem_of_mem_bindings (h : some item ∈ bindings p links items) : item ∈ items := by
  induction links generalizing items with
  | nil => cases h
  | cons link links ih =>
    rw [bindings] at h
    split at h
    next found rest hfound =>
      obtain ⟨-, hmem, hrest⟩ := firstMatch_mem hfound
      rcases List.mem_cons.mp h with heq | h
      · rw [Option.some.inj heq]
        exact hmem
      · exact hrest (ih h)
    next =>
      rcases List.mem_cons.mp h with heq | h
      · cases heq
      · exact ih h

/-- Some link is bound exactly if some item satisfies some link. -/
theorem any_isSome_bindings_iff :
    (bindings p links items).any Option.isSome = true ↔
      ∃ link ∈ links, ∃ item ∈ items, p link item = true := by
  induction links with
  | nil => simp [bindings]
  | cons link links ih =>
    rw [bindings]
    cases hfound : firstMatch (p link) items with
    | none =>
      have hnone := firstMatch_eq_none_iff.mp hfound
      simp only [List.any_cons, Option.isSome_none, Bool.false_or, ih, List.mem_cons,
        exists_eq_or_imp]
      exact (or_iff_right fun ⟨item, hitem, hp⟩ => hnone item hitem hp).symm
    | some found =>
      obtain ⟨hp, hmem, -⟩ := firstMatch_mem hfound
      exact iff_of_true rfl ⟨link, List.mem_cons_self, found.1, hmem, hp⟩

/-- **Every link is bound exactly if the search succeeds.** -/
theorem isSome_bindings_iff :
    (∀ bound ∈ bindings p links items, bound.isSome = true) ↔ embeds p links items = true := by
  induction links generalizing items with
  | nil => simp [bindings, embeds]
  | cons link links ih =>
    rw [bindings, embeds]
    cases firstMatch (p link) items with
    | none => simp
    | some found => simp [ih]

end Spec

end Matching
