import Mathlib.Data.List.Induction
import Mathlib.Data.List.Forall2

/-!
# Linked lists of records

A hash chain: every record carries the hash of the record before it, and the first one carries a
fixed root. Nothing here depends on what the records are or on how they are hashed.

## Main definitions

* `Linked`: each record refers to the one before it
* `tail`: the hash that the next record has to refer to

## Main results

* `linked_append`, `linked_concat`: a chain is continued at its tail
* `Linked.forall₂_of_tail_eq`: when hashes are unique, the last hash determines the chain
-/

namespace HashChain

variable {α β : Type} (hash prev : α → β)

/-- Each record refers to the one before it, and the first to `root`. -/
def Linked : β → List α → Prop
  | _, [] => True
  | root, a :: as => prev a = root ∧ Linked (hash a) as

/-- The hash of the last record, or `root`. -/
def tail (root : β) (as : List α) : β := (as.getLast?.map hash).getD root

variable {hash prev} {root : β} {as bs : List α} {a b : α}

@[simp] theorem tail_nil : tail hash root [] = root := rfl

@[simp] theorem tail_concat : tail hash root (as ++ [a]) = hash a := by simp [tail]

theorem tail_cons : tail hash root (a :: as) = tail hash (hash a) as := by
  induction as using List.reverseRecOn with
  | nil => rfl
  | append_singleton as b _ => rw [← List.cons_append, tail_concat, tail_concat]

/-- A chain is continued at its tail. -/
theorem linked_append :
    Linked hash prev root (as ++ bs) ↔
      Linked hash prev root as ∧ Linked hash prev (tail hash root as) bs := by
  induction as generalizing root with
  | nil => simp [Linked]
  | cons a as ih => simp only [List.cons_append, Linked, ih, tail_cons, and_assoc]

theorem linked_concat :
    Linked hash prev root (as ++ [a]) ↔
      Linked hash prev root as ∧ prev a = tail hash root as := by
  simp [linked_append, Linked]

/-- **When hashes are unique, the last hash determines the chain**: two chains from one root, whose
records agree in `R` and in what they refer to whenever their hashes are equal and never hash to the
root, agree record by record. -/
theorem Linked.forall₂_of_tail_eq {R : α → α → Prop}
    (hunique : ∀ a b, hash a = hash b → R a b ∧ prev a = prev b) (hroot : ∀ a, hash a ≠ root)
    (has : Linked hash prev root as) (hbs : Linked hash prev root bs)
    (htail : tail hash root as = tail hash root bs) : List.Forall₂ R as bs := by
  induction as using List.reverseRecOn generalizing bs with
  | nil =>
    induction bs using List.reverseRecOn with
    | nil => exact .nil
    | append_singleton bs b _ =>
      rw [tail_nil, tail_concat] at htail
      exact absurd htail.symm (hroot b)
  | append_singleton as a ih =>
    induction bs using List.reverseRecOn with
    | nil =>
      rw [tail_nil, tail_concat] at htail
      exact absurd htail (hroot a)
    | append_singleton bs b _ =>
      rw [tail_concat, tail_concat] at htail
      obtain ⟨hrel, hprev⟩ := hunique a b htail
      obtain ⟨has, hpreva⟩ := linked_concat.mp has
      obtain ⟨hbs, hprevb⟩ := linked_concat.mp hbs
      -- Both records refer to the tails of the chains before them.
      have hbefore : tail hash root as = tail hash root bs := by rw [← hpreva, hprev, hprevb]
      exact List.rel_append (ih has hbs hbefore) (.cons hrel .nil)

end HashChain
