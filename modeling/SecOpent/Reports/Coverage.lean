import Mathlib.Algebra.Order.Field.Basic
import Mathlib.Algebra.Order.Ring.Rat
import SecOpent.Assessments.LlmPlanner
import SecOpent.Findings.Correlation

/-!
# Coverage and the release gate

`domain/catalog/report.py`, `_compute_coverage` of `application/execution.py` and the completeness gate
of `application/report_renderer.py`: a required test class is covered by an observation with one of its
CWE or OWASP entries. The rate is recorded when the assessment completes, and the gate of a report
reads it back from the audit trail. What is recorded is the rate of the first asset type, so the others
have no say in it.

## Main definitions

* `Catalog.computeCoverage`, `Execution.computeCoverage`: the report of one asset type, and the rate
  that is recorded
* `coverageFromAudit`, `generateReport`: what a report makes of the record
* `AllCovered`, `ConservativeCoverage`: every required class is covered, and a full rate says so

## Main results

* `coverageRate_eq_one_iff`, `recorded_rate_eq_one_iff`: when a rate is full
* `completenessOk_imp`: a report that passes the gate has a full rate
* `coverage_conservative_iff`: when the recorded coverage is conservative
-/

namespace SecOpent

open Python

/-! ## Coverage of one asset type -/

/-- `_class_covered`. -/
def classCovered (cls : RequiredTestClass) (observations : List Observation) : Bool :=
  observations.any fun observation =>
    cls.cwe.any (observation.cwe.contains ·) || cls.owasp.any (observation.owasp.contains ·)

/-- `CoverageReport`: its constructor refuses a rate out of range. -/
structure CoverageReport where
  assetType : AssetType
  requiredClasses : List String
  coveredClasses : List String
  uncoveredClasses : List String
  coverageRate : ℚ
  rate_mem : 0 ≤ coverageRate ∧ coverageRate ≤ 1

/-- The part of the classes that is covered; all of them when nothing is required. -/
def coverageRate (required : List RequiredTestClass) (observations : List Observation) : ℚ :=
  if required = [] then 1
  else (required.filter (classCovered · observations)).length / required.length

theorem coverageRate_mem (required : List RequiredTestClass) (observations : List Observation) :
    0 ≤ coverageRate required observations ∧ coverageRate required observations ≤ 1 := by
  unfold coverageRate
  split
  · exact ⟨zero_le_one, le_rfl⟩
  · refine ⟨div_nonneg (Nat.cast_nonneg _) (Nat.cast_nonneg _), ?_⟩
    exact div_le_one_of_le₀ (Nat.cast_le.mpr (List.length_filter_le _ _)) (Nat.cast_nonneg _)

/-- `compute_coverage`. -/
def Catalog.computeCoverage (assetType : AssetType) (required : List RequiredTestClass)
    (observations : List Observation) : CoverageReport where
  assetType := assetType
  requiredClasses := required.map RequiredTestClass.id
  coveredClasses := (required.filter (classCovered · observations)).map RequiredTestClass.id
  uncoveredClasses := (required.filter (!classCovered · observations)).map RequiredTestClass.id
  coverageRate := coverageRate required observations
  rate_mem := coverageRate_mem required observations

/-- `CoverageService.compute`. -/
def CoverageService.compute (assetType : AssetType) (observations : List Observation)
    (catalog : TestCatalog) : CoverageReport :=
  Catalog.computeCoverage assetType (catalog.requiredFor assetType) observations

/-- `_compute_coverage`: the rate and the uncovered classes of the first asset type. Nothing in it
raises. -/
def Execution.computeCoverage (catalog : Option TestCatalog) (assetTypes : List AssetType)
    (observations : List Observation) : ℚ × List String :=
  match catalog, assetTypes with
  | some catalog, assetType :: _ =>
    if observations = [] then (0, [])
    else
      let report := CoverageService.compute assetType observations catalog
      (report.coverageRate, report.uncoveredClasses)
  | _, _ => (0, [])

/-! ## What a report makes of it -/

/-- An audit event, with the `coverage_rate` and the `uncovered_classes` of its payload if it has
them. -/
structure CoverageEvent where
  action : String
  resourceId : String
  coverage : Option (ℚ × List String)

/-- The event that an assessment completes with. -/
def completedEvent (assessmentId : String) (coverage : ℚ × List String) : CoverageEvent :=
  ⟨"assessment.completed", assessmentId, some coverage⟩

/-- The coverage that an event records for the assessment. -/
def CoverageEvent.coverageFor (assessmentId : String) (event : CoverageEvent) :
    Option (ℚ × List String) :=
  if event.action = "assessment.completed" ∧ event.resourceId = assessmentId then event.coverage
  else none

/-- `_coverage_from_audit`: the last event that has it. -/
def coverageFromAudit (events : List CoverageEvent) (assessmentId : String) : ℚ × List String :=
  (events.reverse.findSome? (CoverageEvent.coverageFor assessmentId)).getD (0, [])

/-- `ReportData`, with the fields that the gate and the report read. -/
structure ReportData where
  assessmentId : String
  title : String
  findings : List Finding := []
  coverageRate : ℚ := 0
  uncoveredClasses : List String := []
  evidenceDigests : List String := []

/-- `_completeness`. -/
def ReportData.completeness (data : ReportData) : Bool :=
  let coverageGreen := decide (data.coverageRate ≥ 1) && data.uncoveredClasses.isEmpty
  let allValidated := data.findings.all fun finding => decide (finding.status = .validated)
  let evidenceOk := !data.evidenceDigests.isEmpty || data.findings.isEmpty
  coverageGreen && allValidated && evidenceOk

/-- `Report`, as `render` makes it, without its sections, status and digest. -/
structure RenderedReport where
  id : String
  assessmentId : String
  title : String
  findingCount : ℕ
  coverageRate : ℚ
  completenessOk : Bool

/-- `render`. -/
def ReportData.render (data : ReportData) (reportId : String) : RenderedReport where
  id := reportId
  assessmentId := data.assessmentId
  title := data.title
  findingCount := data.findings.length
  coverageRate := data.coverageRate
  completenessOk := data.completeness

/-- `generate_report`, on the findings and the audit events of an assessment. -/
def generateReport (assessmentId title reportId : String) (findings : List Finding)
    (events : List CoverageEvent) : RenderedReport :=
  let coverage := coverageFromAudit events assessmentId
  ReportData.render
    { assessmentId, title, findings
      coverageRate := coverage.1
      uncoveredClasses := coverage.2
      evidenceDigests := findings.flatMap Finding.evidenceIds } reportId

/-! ## What coverage should say -/

/-- Every required class of every asset type is covered. -/
def AllCovered (catalog : TestCatalog) (assetTypes : List AssetType)
    (observations : List Observation) : Prop :=
  ∀ assetType ∈ assetTypes, ∀ cls ∈ catalog.requiredFor assetType,
    classCovered cls observations = true

/-- A full rate is recorded only if everything is covered, and so is a report complete that is
generated once the assessment has completed. -/
structure ConservativeCoverage (catalog : TestCatalog) (assetTypes : List AssetType)
    (observations : List Observation) : Prop where
  rate : (Execution.computeCoverage (some catalog) assetTypes observations).1 = 1 →
    AllCovered catalog assetTypes observations
  report : ∀ (assessmentId title reportId : String) (findings : List Finding)
      (before after : List CoverageEvent),
    (∀ event ∈ after, event.coverageFor assessmentId = none) →
      (generateReport assessmentId title reportId findings
        (before ++ completedEvent assessmentId
          (Execution.computeCoverage (some catalog) assetTypes observations) :: after)).completenessOk =
        true → AllCovered catalog assetTypes observations

section Spec

variable {catalog : TestCatalog} {assetTypes : List AssetType} {observations : List Observation}

/-- A rate is full exactly if every required class is covered. -/
theorem coverageRate_eq_one_iff {required : List RequiredTestClass} :
    coverageRate required observations = 1 ↔
      ∀ cls ∈ required, classCovered cls observations = true := by
  unfold coverageRate
  split
  next hnil => simp [hnil]
  next hcons =>
    have hpos : (required.length : ℚ) ≠ 0 := by simpa using hcons
    rw [div_eq_one_iff_eq hpos, Nat.cast_inj, List.length_filter_eq_length_iff]

/-- **The recorded rate is full** exactly if there are observations, and the first asset type is
covered. -/
theorem recorded_rate_eq_one_iff :
    (Execution.computeCoverage (some catalog) assetTypes observations).1 = 1 ↔
      observations ≠ [] ∧ ∃ assetType rest, assetTypes = assetType :: rest ∧
        ∀ cls ∈ catalog.requiredFor assetType, classCovered cls observations = true := by
  cases assetTypes with
  | nil => simp [Execution.computeCoverage]
  | cons assetType rest =>
    by_cases hnil : observations = []
    · simp [Execution.computeCoverage, hnil]
    · simp only [Execution.computeCoverage, hnil, if_false, ne_eq, not_false_eq_true, true_and]
      show coverageRate _ _ = 1 ↔ _
      rw [coverageRate_eq_one_iff]
      constructor
      · exact fun h => ⟨assetType, rest, rfl, h⟩
      · rintro ⟨_, _, heq, h⟩
        obtain ⟨rfl, rfl⟩ := List.cons.inj heq
        exact h

/-- The recorded rate is at most one. -/
theorem recorded_rate_le_one :
    (Execution.computeCoverage (some catalog) assetTypes observations).1 ≤ 1 := by
  cases assetTypes with
  | nil => exact zero_le_one
  | cons assetType rest =>
    by_cases hnil : observations = []
    · simp [Execution.computeCoverage, hnil]
    · simp only [Execution.computeCoverage, hnil, if_false]
      exact (CoverageService.compute assetType observations catalog).rate_mem.2

/-- After an assessment has completed, a report reads the coverage that it completed with. -/
theorem coverageFromAudit_completed {assessmentId : String} {coverage : ℚ × List String}
    {before after : List CoverageEvent}
    (hafter : ∀ event ∈ after, event.coverageFor assessmentId = none) :
    coverageFromAudit (before ++ completedEvent assessmentId coverage :: after) assessmentId =
      coverage := by
  have hnone : after.reverse.findSome? (CoverageEvent.coverageFor assessmentId) = none :=
    List.findSome?_eq_none_iff.mpr fun event hevent => hafter event (List.mem_reverse.mp hevent)
  simp [coverageFromAudit, List.findSome?_append, hnone, completedEvent,
    CoverageEvent.coverageFor]

/-- A report that passes the gate has a full rate. -/
theorem completenessOk_imp {assessmentId title reportId : String} {findings : List Finding}
    {events : List CoverageEvent}
    (h : (generateReport assessmentId title reportId findings events).completenessOk = true) :
    1 ≤ (coverageFromAudit events assessmentId).1 := by
  simp only [generateReport, ReportData.render, ReportData.completeness, Bool.and_eq_true,
    decide_eq_true_eq] at h
  exact h.1.1.1

end Spec

/-- **The recorded coverage is conservative** exactly if there are no observations, or the first asset
type has a required class that none of them covers, or they cover every required class of the other
asset types. -/
theorem coverage_conservative_iff (catalog : TestCatalog) (assetTypes : List AssetType)
    (observations : List Observation) :
    ConservativeCoverage catalog assetTypes observations ↔
      observations = [] ∨
        (∃ assetType ∈ assetTypes.head?, ∃ cls ∈ catalog.requiredFor assetType,
          classCovered cls observations = false) ∨
        ∀ assetType ∈ assetTypes.tail, ∀ cls ∈ catalog.requiredFor assetType,
          classCovered cls observations = true := by
  constructor
  · intro h
    by_cases hnil : observations = []
    · exact .inl hnil
    cases assetTypes with
    | nil => exact .inr (.inr fun assetType hmem => by cases hmem)
    | cons assetType rest =>
      by_cases hcovered : ∀ cls ∈ catalog.requiredFor assetType, classCovered cls observations = true
      · -- The first asset type is covered, so the rate is full and everything else is covered too.
        have hall := h.rate (recorded_rate_eq_one_iff.mpr ⟨hnil, assetType, rest, rfl, hcovered⟩)
        exact .inr (.inr fun other hother => hall other (List.mem_cons_of_mem _ hother))
      · simp only [not_forall, Bool.not_eq_true] at hcovered
        obtain ⟨cls, hcls, huncovered⟩ := hcovered
        exact .inr (.inl ⟨assetType, rfl, cls, hcls, huncovered⟩)
  · intro h
    have hrate : (Execution.computeCoverage (some catalog) assetTypes observations).1 = 1 →
        AllCovered catalog assetTypes observations := by
      intro hfull
      obtain ⟨hne, assetType, rest, rfl, hcovered⟩ := recorded_rate_eq_one_iff.mp hfull
      rcases h with hnil | ⟨first, hfirst, cls, hcls, huncovered⟩ | hrest
      · exact absurd hnil hne
      · obtain rfl : assetType = first := by simpa using hfirst
        rw [hcovered cls hcls] at huncovered
        cases huncovered
      · intro other hother
        rcases List.mem_cons.mp hother with rfl | hother
        · exact hcovered
        · exact hrest other hother
    refine ⟨hrate, fun assessmentId title reportId findings before after hafter hcomplete => ?_⟩
    have hfull := completenessOk_imp hcomplete
    rw [coverageFromAudit_completed hafter] at hfull
    exact hrate (le_antisymm recorded_rate_le_one hfull)

/-- A class that is required for cloud accounts. -/
def publicBucketClass : RequiredTestClass := ⟨"public-bucket", ["CWE-732"], [], .passive, by decide⟩

/-- A web application and a cloud account. -/
def twoAssetsCatalog : TestCatalog :=
  ⟨⟨[(.webApp, [crossSiteClass]), (.cloudAccount, [publicBucketClass])], by decide⟩⟩

/-- What a scan of the web application reports. -/
def crossSiteObservation : Observation :=
  { externalId := "o-1", assetIdentity := "https://shop.test/", title := "XSS", severity := .high,
    cwe := ["CWE-79"] }

/-- The web application is scanned and the cloud account is not: the rate is full all the same. -/
theorem coverage_of_two_assets_not_conservative :
    Execution.computeCoverage (some twoAssetsCatalog) [.webApp, .cloudAccount]
        [crossSiteObservation] = (1, []) ∧
      ¬ConservativeCoverage twoAssetsCatalog [.webApp, .cloudAccount] [crossSiteObservation] := by
  have hrecorded : Execution.computeCoverage (some twoAssetsCatalog) [.webApp, .cloudAccount]
      [crossSiteObservation] = (1, []) := by decide +kernel
  refine ⟨hrecorded, fun h => ?_⟩
  have hall := h.rate (by rw [hrecorded])
  -- No observation has the CWE of the class required for the cloud account.
  exact absurd (hall .cloudAccount (by decide) publicBucketClass (by decide +kernel))
    (by decide +kernel)

end SecOpent
