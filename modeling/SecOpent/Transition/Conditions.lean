import SecOpent.Transition.Runs

/-!
# Exact conditions on runs

A condition on the steps of a run is exact for a property when the property holds of the run if and
only if every step meets the condition. Three kinds of properties have one: those of the last state
that every step decides, those that say that something persists once it holds, and those that say that
something holds in every state.

## Main definitions

* `Persists step P Q s labels`: once `P` holds, it holds for as long as the steps meet `Q`
* `Always step P s labels`: `P` holds in every state of a run

## Main results

* `runMeets_exact`: a property of the last state that each step decides
* `persists_iff`: what persists is what every step preserves
* `always_iff`: what always holds is what every step leads to
* `always_iff_of_stronger`: the same, with a stronger form of what holds
* `runMeets_iff`: two conditions that agree on the states of an invariant agree on runs
* `forall_pairs_concat`: what any two records of a run have in common, after one more record
-/

namespace Transition

variable {σ ℓ : Type} {step : σ → ℓ → Option σ} {cond : σ → ℓ → Prop} {s t : σ} {labels : List ℓ}

/-- A property that holds after a step exactly if it held before and the step meets the condition
holds after a run exactly if it held before and every step meets it. -/
theorem runMeets_exact {P inv : σ → Prop} (hinv : ∀ s l t, inv s → step s l = some t → inv t)
    (hexact : ∀ s l t, inv s → step s l = some t → (P t ↔ P s ∧ cond s l)) (hs : inv s)
    (h : runLabels step s labels = some t) : P t ↔ P s ∧ runMeets step cond s labels := by
  induction labels generalizing s with
  | nil =>
    cases h
    simp [runMeets]
  | cons l labels ih =>
    obtain ⟨u, hu, hrest⟩ := Option.bind_eq_some_iff.mp h
    rw [ih (hinv s l u hs hu) hrest, hexact s l u hs hu, and_assoc, runMeets]
    simp [hu]

theorem runLabels_append {labels' : List ℓ} :
    runLabels step s (labels ++ labels') =
      (runLabels step s labels).bind fun t => runLabels step t labels' := by
  induction labels generalizing s with
  | nil => rfl
  | cons l labels ih =>
    cases hu : step s l with
    | none => simp [runLabels, hu]
    | some u => simp [runLabels, hu, ih]

/-- What is reached is reached by some labels. -/
theorem Reaches.exists_runLabels (h : Reaches step cond s t) :
    ∃ labels, runLabels step s labels = some t := by
  induction h with
  | refl => exact ⟨[], rfl⟩
  | @tail _ _ l _ _ hnext ih =>
    obtain ⟨labels, hlabels⟩ := ih
    exact ⟨labels ++ [l], by simp [runLabels_append, hlabels, runLabels, hnext]⟩

/-- Once `P` holds in a run, it holds for as long as the steps meet `Q`. -/
def Persists (step : σ → ℓ → Option σ) (P : σ → Prop) (Q : σ → ℓ → Prop) (s : σ)
    (labels : List ℓ) : Prop :=
  ∀ before during after t u, labels = before ++ (during ++ after) →
    runLabels step s before = some t → P t → runMeets step Q t during →
    runLabels step t during = some u → P u

/-- A step that meets `Q` preserves `P`. -/
def Preserves (step : σ → ℓ → Option σ) (P : σ → Prop) (Q : σ → ℓ → Prop) (s : σ) (l : ℓ) : Prop :=
  P s → Q s l → ∀ t, step s l = some t → P t

variable {P : σ → Prop} {Q : σ → ℓ → Prop}

/-- The states of a run that starts where `P` holds. -/
theorem of_runMeets_preserves (hP : P s) (hpreserves : runMeets step (Preserves step P Q) s labels)
    (hQ : runMeets step Q s labels) (h : runLabels step s labels = some t) : P t := by
  induction labels generalizing s with
  | nil =>
    cases h
    exact hP
  | cons l labels ih =>
    obtain ⟨u, hu, hrest⟩ := Option.bind_eq_some_iff.mp h
    exact ih (hpreserves.1 hP hQ.1 u hu) (hpreserves.2 u hu) (hQ.2 u hu) hrest

theorem runMeets_of_append {labels' : List ℓ} (h : runMeets step cond s (labels ++ labels')) :
    runMeets step cond s labels ∧
      ∀ t, runLabels step s labels = some t → runMeets step cond t labels' := by
  induction labels generalizing s with
  | nil =>
    refine ⟨trivial, fun t ht => ?_⟩
    cases ht
    exact h
  | cons l labels ih =>
    refine ⟨⟨h.1, fun u hu => (ih (h.2 u hu)).1⟩, fun t ht => ?_⟩
    obtain ⟨u, hu, hrest⟩ := Option.bind_eq_some_iff.mp ht
    exact (ih (h.2 u hu)).2 t hrest

theorem runMeets_and {cond' : σ → ℓ → Prop} :
    runMeets step (fun s l => cond s l ∧ cond' s l) s labels ↔
      runMeets step cond s labels ∧ runMeets step cond' s labels := by
  induction labels generalizing s with
  | nil => simp [runMeets]
  | cons l labels ih =>
    simp only [runMeets, ih]
    constructor
    · rintro ⟨⟨h, h'⟩, hrest⟩
      exact ⟨⟨h, fun t ht => (hrest t ht).1⟩, h', fun t ht => (hrest t ht).2⟩
    · rintro ⟨⟨h, hrest⟩, h', hrest'⟩
      exact ⟨⟨h, h'⟩, fun t ht => ⟨hrest t ht, hrest' t ht⟩⟩

theorem runMeets_forall {ι : Sort*} {cond : ι → σ → ℓ → Prop} :
    runMeets step (fun s l => ∀ i, cond i s l) s labels ↔
      ∀ i, runMeets step (cond i) s labels := by
  induction labels generalizing s with
  | nil => simp [runMeets]
  | cons l labels ih =>
    simp only [runMeets, ih]
    constructor
    · intro h i
      exact ⟨h.1 i, fun t ht => h.2 t ht i⟩
    · intro h
      exact ⟨fun i => (h i).1, fun t ht i => (h i).2 t ht⟩

theorem runMeets_congr {cond' : σ → ℓ → Prop} (h : ∀ s l, cond s l ↔ cond' s l) :
    runMeets step cond s labels ↔ runMeets step cond' s labels := by
  have heq : cond = cond' := by
    funext s l
    exact propext (h s l)
  rw [heq]

/-- Two conditions agree on a run if they agree where an invariant holds that they keep. -/
theorem runMeets_iff (inv : σ → Prop) {cond' : σ → ℓ → Prop}
    (hexact : ∀ s l, inv s → (cond s l ↔ cond' s l))
    (hinv : ∀ s l t, inv s → cond' s l → step s l = some t → inv t) (hs : inv s) :
    runMeets step cond s labels ↔ runMeets step cond' s labels := by
  induction labels generalizing s with
  | nil => rfl
  | cons l labels ih =>
    simp only [runMeets]
    rw [hexact s l hs]
    refine and_congr_right fun hcond => ?_
    exact forall₂_congr fun t ht => ih (hinv s l t hs hcond ht)

/-- A condition follows from another one on runs if it does where an invariant of those runs holds. -/
theorem runMeets_imp (inv : σ → Prop) {cond' : σ → ℓ → Prop}
    (himp : ∀ s l, inv s → cond s l → cond' s l)
    (hinv : ∀ s l t, inv s → cond s l → step s l = some t → inv t) (hs : inv s)
    (h : runMeets step cond s labels) : runMeets step cond' s labels := by
  induction labels generalizing s with
  | nil => trivial
  | cons l labels ih =>
    exact ⟨himp s l hs h.1, fun t ht => ih (hinv s l t hs h.1 ht) (h.2 t ht)⟩

/-- **What persists is what every step preserves.** -/
theorem persists_iff :
    Persists step P Q s labels ↔ runMeets step (Preserves step P Q) s labels := by
  constructor
  · intro h
    induction labels generalizing s with
    | nil => trivial
    | cons l labels ih =>
      refine ⟨fun hP hQ t ht => ?_, fun t ht => ih ?_⟩
      · refine h [] [l] labels s t rfl rfl hP ⟨hQ, fun _ _ => trivial⟩ ?_
        simp [runLabels, ht]
      · intro before during after u v hlabels hu
        refine h (l :: before) during after u v (by rw [hlabels]; rfl) ?_
        simp [runLabels, ht, hu]
  · rintro h before during after t u rfl ht hP hQ hu
    have hafter := (runMeets_of_append h).2 t ht
    exact of_runMeets_preserves hP (runMeets_of_append hafter).1 hQ hu

/-- `P` holds in every state of a run. -/
def Always (step : σ → ℓ → Option σ) (P : σ → Prop) (s : σ) (labels : List ℓ) : Prop :=
  ∀ before after t, labels = before ++ after → runLabels step s before = some t → P t

theorem Always.head (h : Always step P s labels) : P s :=
  h [] labels s rfl rfl

theorem Always.tail {l : ℓ} (h : Always step P s (l :: labels)) (ht : step s l = some t) :
    Always step P t labels := by
  intro before after u hlabels hu
  refine h (l :: before) after u (by rw [hlabels]; rfl) ?_
  simp [runLabels, ht, hu]

/-- What steps that meet a condition preserve holds always in the runs that meet it. -/
theorem always_of_runMeets
    (hkept : ∀ s l t, P s → Q s l → step s l = some t → P t) (hP : P s)
    (h : runMeets step Q s labels) : Always step P s labels := by
  rintro before after t rfl ht
  have hpreserves : runMeets step (Preserves step P Q) s before :=
    runMeets_of_forall fun l _ s hs hl t => hkept s l t hs hl
  exact of_runMeets_preserves hP hpreserves (runMeets_of_append h).1 ht

/-- The steps of a run in which a property always holds meet what the property after a step needs. -/
theorem runMeets_of_always {Q : σ → ℓ → Prop}
    (hneeded : ∀ s l, (∀ t, step s l = some t → P t) → Q s l) (h : Always step P s labels) :
    runMeets step Q s labels := by
  induction labels generalizing s with
  | nil => trivial
  | cons l labels ih => exact ⟨hneeded s l fun t ht => (h.tail ht).head, fun t ht => ih (h.tail ht)⟩

/-- **What always holds is what every step leads to.** The condition has to be exact for the steps from
states with the property that keep the invariant. -/
theorem always_iff (inv : σ → Prop) (hinv : ∀ s l t, inv s → step s l = some t → inv t)
    (hexact : ∀ s l, inv s → P s → ((∀ t, step s l = some t → P t) ↔ cond s l)) (hs : inv s)
    (hP : P s) : Always step P s labels ↔ runMeets step cond s labels := by
  constructor
  · intro h
    induction labels generalizing s with
    | nil => trivial
    | cons l labels ih =>
      have hnext : ∀ t, step s l = some t → P t := fun t ht => (h.tail ht).head
      exact ⟨(hexact s l hs hP).mp hnext, fun t ht => ih (hinv s l t hs ht) (hnext t ht) (h.tail ht)⟩
  · rintro h before after t rfl ht
    have hbefore := (runMeets_of_append h).1
    clear h
    induction before generalizing s with
    | nil =>
      cases ht
      exact hP
    | cons l before ih =>
      obtain ⟨u, hu, hrest⟩ := Option.bind_eq_some_iff.mp ht
      exact ih (hinv s l u hs hu) ((hexact s l hs hP).mpr hbefore.1 u hu) hrest (hbefore.2 u hu)

/-- What always holds is what every step leads to, when the condition is exact where the property holds
in a stronger form, and keeps that form. -/
theorem always_iff_of_stronger {R : σ → Prop} (hstronger : ∀ s, R s → P s)
    (hneeded : ∀ s l, R s → (∀ t, step s l = some t → P t) → cond s l)
    (hkept : ∀ s l t, R s → cond s l → step s l = some t → R t) (hs : R s) :
    Always step P s labels ↔ runMeets step cond s labels := by
  constructor
  · intro h
    induction labels generalizing s with
    | nil => trivial
    | cons l labels ih =>
      have hmeets := hneeded s l hs fun t ht => (h.tail ht).head
      exact ⟨hmeets, fun t ht => ih (hkept s l t hs hmeets ht) (h.tail ht)⟩
  · intro h before after t hlabels ht
    exact hstronger t (always_of_runMeets hkept hs h before after t hlabels ht)

/-- Any two records are related after one more exactly if they were before, and the new one is related
to each of them. -/
theorem forall_pairs_concat {α : Type} {R : α → α → Prop} (hsymm : ∀ a b, R a b → R b a)
    {records : List α} {last : α} (hlast : R last last) :
    (∀ a ∈ records ++ [last], ∀ b ∈ records ++ [last], R a b) ↔
      (∀ a ∈ records, ∀ b ∈ records, R a b) ∧ ∀ a ∈ records, R a last := by
  simp only [List.forall_mem_append, List.forall_mem_singleton]
  constructor
  · intro h
    exact ⟨fun a ha => (h.1 a ha).1, fun a ha => (h.1 a ha).2⟩
  · rintro ⟨hold, hnew⟩
    exact ⟨fun a ha => ⟨hold a ha, hnew a ha⟩, fun a ha => hsymm a last (hnew a ha), hlast⟩

end Transition
