import Mathlib.Data.List.Nodup
import Mathlib.Data.List.Perm.Subperm
import Mathlib.Data.Option.Basic
import Mathlib.Logic.Relation

/-!
# Depth-first search for cycles

A depth-first search over the successors of a vertex, with the vertices on the path to it and the
vertices that are done. It gives up at a vertex that is on the path. What is done at any time is a
list in which every vertex comes before its successors, so there is no cycle through it; and where
there is no cycle, no vertex is met on its own path.

## Main definitions

* `visit`: the search from one vertex, with a bound on the length of its path
* `search`: the search from every vertex of a list
* `Edge`: a vertex and one of its successors

## Main results

* `Ordered.acc`: no cycle goes through what is done
* `visit_ne_none`: without a cycle the search does not give up
* `search_isSome_iff`: the search ends exactly if there is no cycle
-/

namespace Graph

variable {κ : Type*} (graph : κ → List κ)

/-- The second vertex is a successor of the first. -/
def Edge (source target : κ) : Prop := target ∈ graph source

/-- A list in which the successors of a vertex come after it. -/
inductive Ordered : List κ → Prop
  | nil : Ordered []
  | cons {key : κ} {done : List κ} (hsuccessors : graph key ⊆ done) (hdone : Ordered done) :
      Ordered (key :: done)

section Search

variable [DecidableEq κ]

/-- The vertices that are done after a visit, the last one first, or `none` at a vertex on the path. -/
def visit : ℕ → List κ → List κ → κ → Option (List κ)
  | 0, _, _, _ => none
  | fuel + 1, visiting, visited, key =>
    if key ∈ visiting then none
    else if key ∈ visited then some visited
    else
      ((graph key).foldlM (fun visited successor => visit fuel (key :: visiting) visited successor)
        visited).map (key :: ·)

/-- A visit of each vertex. -/
def search (fuel : ℕ) (keys : List κ) : Option (List κ) :=
  keys.foldlM (fun visited key => visit graph fuel [] visited key) []

end Search

variable {graph}

/-- **No cycle goes through what is done**: every descending path from there ends. -/
theorem Ordered.acc {done : List κ} (h : Ordered graph done) :
    ∀ key ∈ done, Acc (fun target source => Edge graph source target) key := by
  induction h with
  | nil => simp
  | cons hsuccessors _ ih =>
    intro key hkey
    rcases List.mem_cons.mp hkey with rfl | hkey
    · exact ⟨_, fun target htarget => ih target (hsuccessors htarget)⟩
    · exact ih key hkey

theorem not_transGen_of_acc {key : κ} (h : Acc (fun target source => Edge graph source target) key) :
    ¬Relation.TransGen (Edge graph) key key := by
  intro hcycle
  have hback : Relation.TransGen (fun target source => Edge graph source target) key key :=
    Relation.transGen_swap.mpr hcycle
  have hacc := h.transGen
  clear h hcycle
  induction hacc with
  | intro key _ ih => exact ih key hback hback

variable {visiting visited visited' : List κ} {key : κ}

/-- What a fold of visits keeps, when each of them keeps it. -/
theorem ordered_foldlM {f : List κ → κ → Option (List κ)} {keys : List κ}
    (hf : ∀ visited key visited', Ordered graph visited → f visited key = some visited' →
      Ordered graph visited' ∧ visited ⊆ visited' ∧ key ∈ visited')
    (hvisited : Ordered graph visited) (h : keys.foldlM f visited = some visited') :
    Ordered graph visited' ∧ visited ⊆ visited' ∧ keys ⊆ visited' := by
  induction keys generalizing visited with
  | nil =>
    cases h
    exact ⟨hvisited, List.Subset.refl _, List.nil_subset _⟩
  | cons key keys ih =>
    rw [List.foldlM_cons] at h
    obtain ⟨next, hnext, hrest⟩ := Option.bind_eq_some_iff.mp h
    obtain ⟨hordered, hsubset, hkey⟩ := hf _ _ _ hvisited hnext
    obtain ⟨hordered', hsubset', hkeys⟩ := ih hordered hrest
    exact ⟨hordered', List.Subset.trans hsubset hsubset', List.cons_subset.mpr ⟨hsubset' hkey, hkeys⟩⟩

theorem foldlM_ne_none {f : List κ → κ → Option (List κ)} {keys : List κ}
    (hf : ∀ key ∈ keys, ∀ visited, f visited key ≠ none) : keys.foldlM f visited ≠ none := by
  induction keys generalizing visited with
  | nil => exact Option.some_ne_none _
  | cons key keys ih =>
    rw [List.foldlM_cons]
    obtain ⟨next, hnext⟩ := Option.ne_none_iff_exists'.mp (hf key List.mem_cons_self visited)
    rw [hnext]
    exact ih fun other hother => hf other (List.mem_cons_of_mem _ hother)

section Visits

variable [DecidableEq κ] {fuel : ℕ}

/-- A visit leaves what is done in order, and the vertex is done. -/
theorem ordered_visit (hvisited : Ordered graph visited)
    (h : visit graph fuel visiting visited key = some visited') :
    Ordered graph visited' ∧ visited ⊆ visited' ∧ key ∈ visited' := by
  induction fuel generalizing visiting visited visited' key with
  | zero => cases h
  | succ fuel ih =>
    rw [visit] at h
    split at h
    · cases h
    · split at h
      next hmem =>
        cases h
        exact ⟨hvisited, List.Subset.refl _, hmem⟩
      next =>
        obtain ⟨done, hdone, rfl⟩ := Option.map_eq_some_iff.mp h
        obtain ⟨hordered, hsubset, hsuccessors⟩ :=
          ordered_foldlM (fun _ _ _ hordered hvisit => ih hordered hvisit) hvisited hdone
        exact ⟨.cons hsuccessors hordered, List.subset_cons_of_subset _ hsubset, List.mem_cons_self⟩

/-- **Without a cycle no visit gives up.** The path is one without repetitions, so it is no longer than
the list of vertices, and each of its vertices leads to the one that is visited. -/
theorem visit_ne_none {keys : List κ} (hclosed : ∀ key ∈ keys, graph key ⊆ keys)
    (hacyclic : ∀ key ∈ keys, ¬Relation.TransGen (Edge graph) key key) (hkey : key ∈ keys)
    (hpath : visiting.Nodup) (hsubset : visiting ⊆ keys)
    (hleads : ∀ above ∈ visiting, Relation.TransGen (Edge graph) above key)
    (hfuel : keys.length < fuel + visiting.length) : visit graph fuel visiting visited key ≠ none := by
  induction fuel generalizing visiting visited key with
  | zero =>
    have hlength := (List.subperm_of_subset hpath hsubset).length_le
    omega
  | succ fuel ih =>
    have hfresh : key ∉ visiting := fun hmem => hacyclic key hkey (hleads key hmem)
    rw [visit, if_neg hfresh]
    split
    · exact Option.some_ne_none _
    · rw [Ne, Option.map_eq_none_iff]
      refine foldlM_ne_none fun successor hsuccessor visited => ?_
      refine ih (hclosed key hkey hsuccessor) (List.nodup_cons.mpr ⟨hfresh, hpath⟩)
        (List.cons_subset.mpr ⟨hkey, hsubset⟩) ?_ ?_
      · intro above habove
        rcases List.mem_cons.mp habove with rfl | habove
        · exact .single hsuccessor
        · exact (hleads above habove).tail hsuccessor
      · rw [List.length_cons]
        omega

/-- **The search ends exactly if there is no cycle.** -/
theorem search_isSome_iff {keys : List κ} (hclosed : ∀ key ∈ keys, graph key ⊆ keys)
    (hfuel : keys.length < fuel) : (search graph fuel keys).isSome ↔
      ∀ key ∈ keys, ¬Relation.TransGen (Edge graph) key key := by
  constructor
  · intro h key hkey
    obtain ⟨done, hdone⟩ := Option.isSome_iff_exists.mp h
    obtain ⟨hordered, -, hkeys⟩ :=
      ordered_foldlM (fun _ _ _ hordered hvisit => ordered_visit hordered hvisit) .nil hdone
    exact not_transGen_of_acc (hordered.acc key (hkeys hkey))
  · intro hacyclic
    refine Option.isSome_iff_ne_none.mpr (foldlM_ne_none fun key hkey visited => ?_)
    exact visit_ne_none hclosed hacyclic hkey List.nodup_nil (List.nil_subset _) (by simp) (by simpa)

end Visits

end Graph
