import Mathlib.Algebra.Order.BigOperators.Group.List
import SecOpent.Python.IpRoundTrip
import SecOpent.Python.Url

/-!
# Normal paths

`posixpath.normpath` of a path below the root keeps the components that are neither empty nor a dot, and
lets `..` drop the one before it. What it returns is a list of plain components, and a path that is one
already is kept.

## Main definitions

* `IsComponent`: a plain component of a path
* `rootedPath`: the path of a list of components

## Main results

* `exists_normpath_rooted`: a normal path below the root is a list of plain components
* `normpath_rootedPath`: a list of plain components is kept
* `length_normpath_le`: a normal path is not longer than the path
-/

namespace Python

/-- A plain component of a path. -/
structure IsComponent (comp : Str) : Prop where
  ne_nil : comp ≠ []
  ne_dot : comp ≠ ['.']
  ne_dots : comp ≠ ['.', '.']
  no_slash : '/' ∉ comp

/-- The path of a list of components, below the root. -/
def rootedPath (comps : List Str) : Str := '/' :: ['/'].intercalate comps

/-- What is split at a character does not contain it, and is a part of the text. -/
theorem piece_of_splitOn (a : Char) :
    ∀ {s piece : Str}, piece ∈ s.splitOn a → a ∉ piece ∧ piece ⊆ s := by
  intro s
  induction s with
  | nil =>
    intro piece hpiece
    rw [List.splitOn_nil, List.mem_singleton] at hpiece
    rw [hpiece]
    exact ⟨List.not_mem_nil, List.Subset.refl []⟩
  | cons c s ih =>
    intro piece hpiece
    rw [List.splitOn_cons_eq_if_modifyHead] at hpiece
    by_cases hc : c = a
    · rw [if_pos (by simpa using hc)] at hpiece
      rcases List.mem_cons.mp hpiece with rfl | hpiece
      · exact ⟨List.not_mem_nil, List.nil_subset _⟩
      · exact ⟨(ih hpiece).1, List.subset_cons_of_subset c (ih hpiece).2⟩
    · rw [if_neg (by simpa using hc)] at hpiece
      cases hsplit : s.splitOn a with
      | nil => exact absurd hsplit (List.splitOn_ne_nil a s)
      | cons first pieces =>
        rw [hsplit, List.modifyHead_cons] at hpiece
        rw [hsplit] at ih
        rcases List.mem_cons.mp hpiece with rfl | hpiece
        · obtain ⟨hnot, hsub⟩ := ih (List.mem_cons_self ..)
          refine ⟨fun hmem => ?_, List.cons_subset_cons c hsub⟩
          rcases List.mem_cons.mp hmem with hmem | hmem
          · exact hc hmem.symm
          · exact hnot hmem
        · obtain ⟨hnot, hsub⟩ := ih (List.mem_cons_of_mem _ hpiece)
          exact ⟨hnot, List.subset_cons_of_subset c hsub⟩

/-! ## The loop of `normpath` -/

/-- One component leaves plain components, with characters of what was read. -/
theorem isComponent_normStep {s : Str} {new : List Str} {comp : Str}
    (hnew : ∀ c ∈ new, IsComponent c ∧ c ⊆ s) (hcomp : '/' ∉ comp) (hsub : comp ⊆ s) :
    ∀ c ∈ normStep true new comp, IsComponent c ∧ c ⊆ s := by
  intro c hc
  unfold normStep at hc
  by_cases hskip : (comp == [] || comp == ['.']) = true
  · rw [if_pos hskip] at hc
    exact hnew c hc
  rw [if_neg hskip] at hc
  simp only [Bool.not_eq_true, Bool.or_eq_false_iff, beq_eq_false_iff_ne] at hskip
  -- No kept component is `..`, so `..` drops the last one.
  have hlast : (new.getLast? == some ['.', '.']) = false := by
    rw [beq_eq_false_iff_ne]
    intro hlast
    exact (hnew _ (List.mem_of_getLast? hlast)).1.ne_dots rfl
  by_cases hdots : comp = ['.', '.']
  · rw [if_neg (by simp [hdots, hlast])] at hc
    exact hnew c (List.dropLast_subset new hc)
  · rw [if_pos (by simp [hdots])] at hc
    rcases List.mem_append.mp hc with hc | hc
    · exact hnew c hc
    · rw [List.mem_singleton.mp hc]
      exact ⟨⟨hskip.1, hskip.2, hdots, hcomp⟩, hsub⟩

theorem isComponent_foldl {s : Str} (pieces : List Str)
    (hpieces : ∀ piece ∈ pieces, '/' ∉ piece ∧ piece ⊆ s) :
    ∀ new : List Str, (∀ c ∈ new, IsComponent c ∧ c ⊆ s) →
      ∀ c ∈ pieces.foldl (normStep true) new, IsComponent c ∧ c ⊆ s := by
  induction pieces with
  | nil => exact fun new hnew => hnew
  | cons piece pieces ih =>
    intro new hnew
    obtain ⟨hslash, hsub⟩ := hpieces piece (List.mem_cons_self ..)
    rw [List.foldl_cons]
    exact ih (fun p hp => hpieces p (List.mem_cons_of_mem _ hp)) _
      (isComponent_normStep hnew hslash hsub)

/-- Plain components are kept, one after the other. -/
theorem foldl_normStep_of_isComponent (comps : List Str) (h : ∀ c ∈ comps, IsComponent c) :
    ∀ new, comps.foldl (normStep true) new = new ++ comps := by
  induction comps with
  | nil => exact fun new => (List.append_nil new).symm
  | cons comp comps ih =>
    intro new
    have hcomp := h comp (List.mem_cons_self ..)
    have hstep : normStep true new comp = new ++ [comp] := by
      simp [normStep, hcomp.ne_nil, hcomp.ne_dot, hcomp.ne_dots]
    rw [List.foldl_cons, hstep, ih (fun c hc => h c (List.mem_cons_of_mem _ hc)), List.append_assoc]
    rfl

/-! ## Paths below the root -/

/-- The loop on a path with one slash at its start. -/
theorem normpath_slash {s : Str} (hs : s.head? ≠ some '/') :
    normpath ('/' :: s) = rootedPath ((s.splitOn '/').foldl (normStep true) []) := by
  have htwo : startsWith ('/' :: s) ['/', '/'] = false := by
    cases s with
    | nil => rfl
    | cons c s =>
      have hc : c ≠ '/' := fun h => hs (by rw [h]; rfl)
      simp [startsWith, List.isPrefixOf, hc.symm]
  have hone : startsWith ('/' :: s) ['/'] = true := by simp [startsWith, List.isPrefixOf]
  have hsplit : ('/' :: s).splitOn '/' = [] :: s.splitOn '/' := by
    rw [List.splitOn_cons_eq_if_modifyHead, if_pos (by simp)]
  simp only [normpath, List.isEmpty_cons, Bool.false_eq_true, if_false, htwo, Bool.false_and, hone,
    if_true, hsplit, List.foldl_cons]
  simp [rootedPath, normStep]

/-- **A normal path below the root is a list of plain components.** -/
theorem exists_normpath_rooted {s : Str} (hs : s.head? ≠ some '/') :
    ∃ comps, (∀ c ∈ comps, IsComponent c ∧ c ⊆ s) ∧ normpath ('/' :: s) = rootedPath comps := by
  refine ⟨_, ?_, normpath_slash hs⟩
  refine isComponent_foldl (s.splitOn '/') (fun piece hpiece => piece_of_splitOn '/' hpiece) [] ?_
  intro c hc
  cases hc

/-! ### Lengths -/

/-- The characters of the components, with a slash for each. -/
def weight (comps : List Str) : ℕ := (comps.map fun comp => comp.length + 1).sum

theorem length_intercalate {comps : List Str} (h : comps ≠ []) :
    (['/'].intercalate comps).length + 1 = weight comps := by
  induction comps with
  | nil => exact absurd rfl h
  | cons comp comps ih =>
    cases comps with
    | nil => simp [weight]
    | cons comp' comps =>
      have hrest := ih (List.cons_ne_nil comp' comps)
      rw [List.intercalate_cons_cons]
      simp only [weight, List.map_cons, List.sum_cons, List.length_append, List.length_cons,
        List.length_nil] at hrest ⊢
      omega

theorem length_rootedPath_le (comps : List Str) : (rootedPath comps).length ≤ max 1 (weight comps) := by
  by_cases h : comps = []
  · rw [h]
    exact le_max_left 1 _
  · have hlength := length_intercalate h
    rw [rootedPath, List.length_cons, hlength]
    exact le_max_right 1 _

theorem weight_normStep_le (new : List Str) (comp : Str) :
    weight (normStep true new comp) ≤ weight new + (comp.length + 1) := by
  unfold normStep
  split
  · exact Nat.le_add_right _ _
  split
  · simp [weight]
  · have hsub : ((new.dropLast).map fun c => c.length + 1).Sublist (new.map fun c => c.length + 1) :=
      (List.dropLast_sublist new).map _
    exact (hsub.sum_le_sum fun _ _ => Nat.zero_le _).trans (Nat.le_add_right _ _)

theorem weight_foldl_le (pieces : List Str) :
    ∀ new, weight (pieces.foldl (normStep true) new) ≤ weight new + weight pieces := by
  induction pieces with
  | nil => exact fun new => le_rfl
  | cons piece pieces ih =>
    intro new
    have hstep := weight_normStep_le new piece
    have hrest := ih (normStep true new piece)
    have hcons : weight (piece :: pieces) = piece.length + 1 + weight pieces := by simp [weight]
    rw [List.foldl_cons, hcons]
    omega

/-- A normal path is not longer than the path. -/
theorem length_normpath_le {s : Str} (hs : s.head? ≠ some '/') :
    (normpath ('/' :: s)).length ≤ s.length + 1 := by
  have hpieces : weight (s.splitOn '/') = s.length + 1 := by
    rw [← length_intercalate (List.splitOn_ne_nil '/' s), List.intercalate_splitOn]
  have hfold := weight_foldl_le (s.splitOn '/') []
  have hlength := length_rootedPath_le ((s.splitOn '/').foldl (normStep true) [])
  have hnil : weight [] = 0 := rfl
  rw [normpath_slash hs]
  omega

/-- A slash at the end does not count. -/
theorem normpath_append_slash {s : Str} (hs : s.head? ≠ some '/') (hne : s ≠ []) :
    normpath ('/' :: (s ++ ['/'])) = normpath ('/' :: s) := by
  have hhead : (s ++ ['/']).head? ≠ some '/' := by
    rw [List.head?_append_of_ne_nil _ hne]
    exact hs
  have hsplit : (s ++ ['/']).splitOn '/' = s.splitOn '/' ++ [[]] := by
    rw [List.splitOn_append_cons_self]
    rfl
  rw [normpath_slash hhead, normpath_slash hs, hsplit, List.foldl_append]
  rfl

/-! ### Lists of components -/

/-- The text of a list of components does not start with a slash. -/
theorem head?_intercalate {comps : List Str} (h : ∀ c ∈ comps, IsComponent c) :
    (['/'].intercalate comps).head? ≠ some '/' := by
  cases comps with
  | nil => simp
  | cons comp comps =>
    have hcomp := h comp (List.mem_cons_self ..)
    cases comp with
    | nil => exact absurd rfl hcomp.ne_nil
    | cons c comp =>
      have hc : c ≠ '/' := fun hc => hcomp.no_slash (by rw [hc]; exact List.mem_cons_self ..)
      cases comps with
      | nil => simpa using hc
      | cons comp' comps => simpa [List.intercalate_cons_cons] using hc

theorem intercalate_ne_nil {comps : List Str} (h : ∀ c ∈ comps, IsComponent c) (hcomps : comps ≠ []) :
    ['/'].intercalate comps ≠ [] := by
  cases comps with
  | nil => exact absurd rfl hcomps
  | cons comp rest =>
    have hcomp := (h comp (List.mem_cons_self ..)).ne_nil
    cases rest with
    | nil => simpa using hcomp
    | cons comp' rest => simp [List.intercalate_cons_cons]

theorem splitOn_components {comps : List Str} (h : ∀ c ∈ comps, IsComponent c) :
    (['/'].intercalate comps).splitOn '/' = if comps = [] then [[]] else comps := by
  by_cases hcomps : comps = []
  · rw [if_pos hcomps, hcomps]
    rfl
  · rw [if_neg hcomps]
    exact List.splitOn_intercalate '/' (fun c hc => (h c hc).no_slash) hcomps

/-- A list of plain components is kept, with or without a slash at its end. -/
theorem normpath_rootedPath {comps : List Str} (h : ∀ c ∈ comps, IsComponent c) :
    normpath (rootedPath comps) = rootedPath comps := by
  rw [rootedPath, normpath_slash (head?_intercalate h), splitOn_components h]
  by_cases hcomps : comps = []
  · rw [if_pos hcomps, hcomps]
    rfl
  · rw [if_neg hcomps, foldl_normStep_of_isComponent comps h, List.nil_append]
    rfl

theorem normpath_rootedPath_slash {comps : List Str} (h : ∀ c ∈ comps, IsComponent c)
    (hcomps : comps ≠ []) : normpath (rootedPath comps ++ ['/']) = rootedPath comps := by
  rw [rootedPath, List.cons_append,
    normpath_append_slash (head?_intercalate h) (intercalate_ne_nil h hcomps)]
  exact normpath_rootedPath h

end Python
