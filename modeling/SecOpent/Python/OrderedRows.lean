import Mathlib.Data.Finset.Sort

/-!
# Rows in the order of a column

`ORDER BY` a column of numbers: the rows come in an order in which the numbers do not decrease, and
rows with the same number come in any order. So what comes is determined by the rows only if no two
have the same number, and it is the order in which they are given only if the numbers increase. The
members of a set have one order, in which they are `sorted`.

## Main definitions

* `OrderedBy key rows answer`: the answer is the rows, ordered by the key
* `sorted`: the members of a set in their order

## Main results

* `exists_orderedBy`: there is an answer
* `eq_of_map_eq`: rows with the same ids in the same order are the same
* `orderedBy_unique_iff`: the rows as they are given are the one answer when their keys increase
-/

namespace Python

variable {α : Type} {key : α → ℕ} {rows answer : List α}

/-- The answer is the rows, ordered by the key. -/
structure OrderedBy (key : α → ℕ) (rows answer : List α) : Prop where
  perm : answer.Perm rows
  sorted : answer.Pairwise fun a b => key a ≤ key b

/-- There is an answer. -/
theorem exists_orderedBy (key : α → ℕ) (rows : List α) : ∃ answer, OrderedBy key rows answer := by
  have : Std.Total fun a b : α => key a ≤ key b := ⟨fun a b => le_total (key a) (key b)⟩
  have : IsTrans α fun a b => key a ≤ key b := ⟨fun a b c hab hbc => le_trans hab hbc⟩
  exact ⟨_, List.perm_insertionSort (fun a b => key a ≤ key b) rows,
    List.pairwise_insertionSort (fun a b => key a ≤ key b) rows⟩

/-- Rows whose keys increase have one answer. -/
theorem OrderedBy.eq_of_increasing (h : OrderedBy key rows answer)
    (hrows : rows.Pairwise fun a b => key a < key b) : answer = rows := by
  refine h.perm.eq_of_pairwise ?_ h.sorted (hrows.imp fun hlt => hlt.le)
  intro a b ha hb hab hba
  -- A key is the key of one row.
  have hkeys : (rows.map key).Nodup := List.pairwise_map.mpr (hrows.imp fun hlt => hlt.ne)
  exact List.inj_on_of_nodup_map hkeys (h.perm.mem_iff.mp ha) hb (le_antisymm hab hba)

/-- Rows are known by what tells them apart. -/
theorem eq_of_map_eq {β : Type} {f : α → β} {rows rows' : List α}
    (hinj : ∀ a ∈ rows, ∀ b ∈ rows', f a = f b → a = b) (h : rows.map f = rows'.map f) :
    rows = rows' := by
  induction rows generalizing rows' with
  | nil => exact (List.map_eq_nil_iff.mp h.symm).symm
  | cons a rows ih =>
    cases rows' with
    | nil => cases h
    | cons b rows' =>
      obtain ⟨hhead, htail⟩ := List.cons.inj h
      have hrest := ih (fun c hc d hd => hinj c (List.mem_cons_of_mem _ hc) d
        (List.mem_cons_of_mem _ hd)) htail
      rw [hinj a List.mem_cons_self b List.mem_cons_self hhead, hrest]

/-- **The rows as they are given are the one answer exactly when their keys increase.** -/
theorem orderedBy_unique_iff (hnodup : rows.Nodup) :
    (∀ answer, OrderedBy key rows answer → answer = rows) ↔
      rows.Pairwise fun a b => key a < key b := by
  constructor
  · intro hunique
    obtain ⟨first, hfirst⟩ := exists_orderedBy key rows
    have hsorted := hunique first hfirst ▸ hfirst.sorted
    clear first hfirst
    induction rows with
    | nil => exact .nil
    | cons a rows ih =>
      obtain ⟨hout, hnodup⟩ := List.nodup_cons.mp hnodup
      obtain ⟨hle, hsorted⟩ := List.pairwise_cons.mp hsorted
      have hrest : ∀ answer, OrderedBy key rows answer → answer = rows := by
        intro answer h
        have hall := hunique (a :: answer) ⟨h.perm.cons a, List.pairwise_cons.mpr
          ⟨fun b hb => hle b (h.perm.mem_iff.mp hb), h.sorted⟩⟩
        exact (List.cons.inj hall).2
      have hincreasing := ih hnodup hrest hsorted
      refine List.pairwise_cons.mpr ⟨fun b hb => ?_, hincreasing⟩
      cases rows with
      | nil => cases hb
      | cons b' rows =>
        obtain ⟨hless, hincreasing⟩ := List.pairwise_cons.mp hincreasing
        obtain ⟨hle', hsorted⟩ := List.pairwise_cons.mp hsorted
        have hhead : key a < key b' := by
          by_contra hnot
          -- The first two rows could change places.
          have hswap := hunique (b' :: a :: rows) ⟨List.Perm.swap a b' rows,
            List.pairwise_cons.mpr ⟨List.forall_mem_cons.mpr ⟨Nat.le_of_not_lt hnot, hle'⟩,
              List.pairwise_cons.mpr ⟨fun c hc => hle c (List.mem_cons_of_mem _ hc), hsorted⟩⟩⟩
          exact hout (List.mem_cons.mpr (.inl (List.cons.inj hswap).1.symm))
        rcases List.mem_cons.mp hb with rfl | hb
        · exact hhead
        · exact hhead.trans (hless b hb)
  · exact fun hincreasing answer h => h.eq_of_increasing hincreasing

section Sorted

variable {β : Type} [LinearOrder β] {items : Finset β} {item : β}

/-- `sorted` of a set. -/
def sorted (items : Finset β) : List β := items.sort (· ≤ ·)

@[simp] theorem mem_sorted : item ∈ sorted items ↔ item ∈ items := Finset.mem_sort _

@[simp] theorem sorted_toFinset [DecidableEq β] : (sorted items).toFinset = items := by
  ext item
  rw [List.mem_toFinset, mem_sorted]

end Sorted

end Python
