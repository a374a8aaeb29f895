import SecOpent.Findings.AttackChains

/-!
# Template matching in two places

`match_template` and `ChainEngine._match_template` both take, for each link of a template, the first
finding after the last one taken. The first ends at a link without a finding; the second passes over it
and leaves the link pending. Both are greedy matchings of the links along the findings.

## Main definitions

* `projections`: what `match_template` reads of a list of findings

## Main results

* `matchLinks_eq`, `bindLinks_eq`: the two loops are the two greedy matchings
* `chainStatus_templateLinks`: a chain of a template is confirmed exactly if every link is bound
* `matchTemplate_complete`: both agree, and find a match whenever there is one
-/

namespace SecOpent

open Matching

/-- The `(cwe, asset)` pairs of the findings. -/
def projections (findings : List CheckedFinding) : List (List String × String) :=
  findings.map fun f => (f.cwe, f.asset)

/-! ## The loops -/

theorem matchLinks_eq (findings : List (List String × String)) (links : List ChainLinkSpec)
    (position : ℕ) :
    matchLinks findings links position =
      embeds (fun link f => link.matches f.1 f.2) links (findings.drop position) := by
  induction links generalizing position with
  | nil => rfl
  | cons link links ih =>
    rw [matchLinks, embeds, ← firstIndex_eq]
    cases firstIndex (fun f => link.matches f.1 f.2) findings position with
    | none => rfl
    | some found => exact ih (found.1 + 1)

theorem bindLinks_eq (findings : List CheckedFinding) (specs : List ChainLinkSpec) (position : ℕ) :
    bindLinks findings specs position =
      bindings (fun spec f => spec.matches f.cwe f.asset) specs (findings.drop position) := by
  -- The position moves only when a link is bound, so it is generalized.
  induction specs generalizing position with
  | nil => rfl
  | cons spec specs ih =>
    rw [bindLinks, bindings, ← firstIndex_eq]
    cases firstIndex (fun f => spec.matches f.cwe f.asset) findings position with
    | none => exact congrArg (none :: ·) (ih position)
    | some found => exact congrArg (some found.2 :: ·) (ih (found.1 + 1))

/-- A template matches the findings that its links can be bound to one after the other. -/
theorem matchTemplate_projections (template : AttackChainTemplate) (findings : List CheckedFinding) :
    matchTemplate template (projections findings) = true ↔
      ∀ bound ∈ bindLinks findings template.links 0, bound.isSome = true := by
  rw [matchTemplate, matchLinks_eq, bindLinks_eq, isSome_bindings_iff, List.drop_zero, List.drop_zero,
    projections, embeds_map]

/-! ## The status of a chain -/

@[simp] theorem isConfirmed_bound (finding : CheckedFinding) :
    (ChainLink.bound finding).isConfirmed = true := by
  simp [ChainLink.isConfirmed, ChainLink.bound, finding.id_ne]

theorem chainStatus_eq_confirmed_iff (links : List ChainLink) :
    chainStatus links = .confirmed ↔ ∀ link ∈ links, link.isConfirmed = true := by
  rw [chainStatus, ← List.all_eq_true]
  split
  next hall => exact iff_of_true rfl hall
  next hall =>
    -- Some link is confirmed or none is: the chain is a hypothesis or verified in part.
    refine iff_of_false ?_ hall
    split
    · decide
    · decide

theorem isConfirmed_elim (hex : String) (bound : Option CheckedFinding) :
    (bound.elim (ChainLink.pending hex) .bound).isConfirmed = bound.isSome := by
  cases bound with
  | none => rfl
  | some finding => exact isConfirmed_bound finding

/-- **A chain of a template is confirmed exactly if every link is bound.** -/
theorem chainStatus_templateLinks (hex : ℕ → String) (bound : List (Option CheckedFinding)) :
    chainStatus (templateLinks hex bound) = .confirmed ↔
      ∀ finding ∈ bound, finding.isSome = true := by
  rw [chainStatus_eq_confirmed_iff, templateLinks]
  constructor
  · intro h finding hmem
    obtain ⟨i, hi, rfl⟩ := List.getElem_of_mem hmem
    rw [← isConfirmed_elim (hex i)]
    exact h _ (List.mem_mapIdx.mpr ⟨i, hi, rfl⟩)
  · intro h link hmem
    obtain ⟨i, hi, rfl⟩ := List.mem_mapIdx.mp hmem
    rw [isConfirmed_elim]
    exact h _ (List.getElem_mem hi)

section Engine

variable (uuids : ChainUuids)

/-- A template with at least one link that all are bound has a link that is bound. -/
theorem any_isSome_of_all {bound : List (Option CheckedFinding)} (hne : bound ≠ [])
    (h : ∀ finding ∈ bound, finding.isSome = true) : bound.any Option.isSome = true := by
  obtain ⟨first, rest, rfl⟩ := List.exists_cons_of_ne_nil hne
  rw [List.any_cons, h first List.mem_cons_self, Bool.true_or]

theorem bindLinks_template_ne_nil (template : AttackChainTemplate) (findings : List CheckedFinding) :
    bindLinks findings template.links 0 ≠ [] := by
  intro h
  have hlength := length_bindLinks findings template.links 0
  rw [h] at hlength
  have := template.two_links
  rw [← hlength] at this
  exact absurd this (by decide)

/-- The engine confirms the chain of a template exactly if the template matches. -/
theorem exists_confirmed_iff (number : ℕ) (template : AttackChainTemplate)
    (findings : List CheckedFinding) :
    (∃ chain, ChainEngine.matchTemplate uuids number template findings = some chain ∧
        chain.status = .confirmed) ↔
      matchTemplate template (projections findings) = true := by
  rw [matchTemplate_projections, ← chainStatus_templateLinks (uuids.link number)]
  constructor
  · rintro ⟨chain, hchain, hstatus⟩
    rw [ChainEngine.matchTemplate] at hchain
    split at hchain
    next => rw [← Option.some.inj hchain] at hstatus; exact hstatus
    next => cases hchain
  · intro h
    -- A template has two links at least, so one that is bound throughout is not passed over.
    have hany := any_isSome_of_all (bindLinks_template_ne_nil template findings)
      ((chainStatus_templateLinks _ _).mp h)
    exact ⟨_, if_pos hany, h⟩

/-- The confirmed chains, in their order, are those of the templates that match. -/
theorem filter_confirmed_hypothesizeFromFindings (engine : ChainEngine)
    (findings : List CheckedFinding) :
    (engine.hypothesizeFromFindings uuids findings).filter (fun chain => chain.status = .confirmed) =
      (engine.templates.zipIdx.filter fun entry =>
          matchTemplate entry.1 (projections (validatedFindings findings))).filterMap
        fun entry => ChainEngine.matchTemplate uuids entry.2 entry.1 (validatedFindings findings) := by
  rw [ChainEngine.hypothesizeFromFindings, List.filter_filterMap, List.filterMap_filter]
  -- The two sides agree on each template and its number.
  refine List.filterMap_congr fun entry _ => ?_
  have hiff := exists_confirmed_iff uuids entry.2 entry.1 (validatedFindings findings)
  cases hchain : ChainEngine.matchTemplate uuids entry.2 entry.1 (validatedFindings findings) with
  | none => simp
  | some chain =>
    rw [hchain] at hiff
    by_cases hmatch : matchTemplate entry.1 (projections (validatedFindings findings)) = true
    · obtain ⟨_, heq, hstatus⟩ := hiff.mpr hmatch
      obtain rfl := Option.some.inj heq
      simp [hmatch, hstatus]
    · have hstatus : chain.status ≠ .confirmed := fun h => hmatch (hiff.mp ⟨chain, rfl, h⟩)
      simp [hmatch, hstatus]

end Engine

/-- **Matching is complete, and the engine agrees with it.** A template matches a list of pairs exactly
if some strictly increasing choice of positions satisfies its links; and of the templates of an engine,
exactly those that match the validated findings have a confirmed chain. -/
theorem matchTemplate_complete :
    (∀ (template : AttackChainTemplate) (findings : List (List String × String)),
      matchTemplate template findings = true ↔
        ∃ position : Fin template.links.length → Fin findings.length, StrictMono position ∧
          ∀ i, (template.links.get i).matches (findings.get (position i)).1
            (findings.get (position i)).2 = true) ∧
    ∀ (uuids : ChainUuids) (engine : ChainEngine) (findings : List CheckedFinding),
      (∀ (number : ℕ) (template : AttackChainTemplate),
        (∃ chain, ChainEngine.matchTemplate uuids number template (validatedFindings findings) =
            some chain ∧ chain.status = .confirmed) ↔
          matchTemplate template (projections (validatedFindings findings)) = true) ∧
      (engine.hypothesizeFromFindings uuids findings).filter (fun chain => chain.status = .confirmed) =
        (engine.templates.zipIdx.filter fun entry =>
            matchTemplate entry.1 (projections (validatedFindings findings))).filterMap
          fun entry =>
            ChainEngine.matchTemplate uuids entry.2 entry.1 (validatedFindings findings) := by
  refine ⟨fun template findings => ?_, fun uuids engine findings => ⟨fun number template => ?_, ?_⟩⟩
  · rw [matchTemplate, matchLinks_eq, List.drop_zero, embeds_iff_increasing]
    exact Iff.rfl
  · exact exists_confirmed_iff uuids number template (validatedFindings findings)
  · exact filter_confirmed_hypothesizeFromFindings uuids engine findings

end SecOpent
