import Mathlib.Data.List.Perm.Subperm
import SecOpent.Findings.Partition

/-!
# What the observations of a finding share

The fingerprint of an observation has its asset and its CWE and CVE lists, and leaves out the rule that
reported it, so that the same vulnerability found by several tools is one finding. Observations of one
finding share an identifier, then, unless they have none: all observations without identifiers on one
asset are one finding, whatever rules reported them.

## Main definitions

* `ReportedObservation`: an observation with its rule
* `Merged`: `correlate` puts two observations into one finding

## Main results

* `merged_iff`: two observations are merged exactly if they have one fingerprint
* `merged_observations_share`: what is merged, and what is always merged
-/

namespace SecOpent

open Python

/-- An observation with the `rule_id` that reported it, which `correlate` does not read. -/
structure ReportedObservation extends Observation where
  ruleId : String
  deriving DecidableEq

/-- `correlate` puts the two observations into one finding. -/
def Merged (digest : FingerprintDigest) (observations : List ReportedObservation)
    (o o' : ReportedObservation) : Prop :=
  ∃ entry ∈ correlated digest (observations.map ReportedObservation.toObservation),
    o.toObservation ∈ entry.2 ∧ o'.toObservation ∈ entry.2

/-- The observations have a CWE or a CVE id in common. -/
def Observation.SharesIdentifier (o o' : Observation) : Prop :=
  (∃ cwe ∈ o.cwe, cwe ∈ o'.cwe) ∨ ∃ cve ∈ o.cve, cve ∈ o'.cve

/-- The observation has neither a CWE nor a CVE id. -/
def Observation.Unidentified (o : Observation) : Prop := o.cwe = [] ∧ o.cve = []

section Spec

variable {digest : FingerprintDigest} {observations : List ReportedObservation}
  {o o' : ReportedObservation}

/-- **Merged observations** are those with one fingerprint. -/
theorem merged_iff (ho : o ∈ observations) (ho' : o' ∈ observations) :
    Merged digest observations o o' ↔
      observationFingerprint digest o.toObservation =
        observationFingerprint digest o'.toObservation := by
  constructor
  · rintro ⟨entry, hentry, hmem, hmem'⟩
    rw [(mem_correlated hentry).2.1, List.mem_filter, decide_eq_true_eq] at hmem hmem'
    exact hmem.2.trans hmem'.2.symm
  · intro h
    have hmem : o.toObservation ∈ observations.map ReportedObservation.toObservation :=
      List.mem_map_of_mem ho
    have hmem' : o'.toObservation ∈ observations.map ReportedObservation.toObservation :=
      List.mem_map_of_mem ho'
    obtain ⟨entry, hentry, hfingerprint⟩ :
        ∃ entry ∈ correlated digest (observations.map ReportedObservation.toObservation),
          entry.1.fingerprint = observationFingerprint digest o.toObservation :=
      exists_mem_correlated hmem
    refine ⟨entry, hentry, ?_, ?_⟩
    · rw [(mem_correlated hentry).2.1, List.mem_filter, decide_eq_true_eq]
      exact ⟨hmem, hfingerprint.symm⟩
    · rw [(mem_correlated hentry).2.1, List.mem_filter, decide_eq_true_eq]
      exact ⟨hmem', (hfingerprint.trans h).symm⟩

/-- Merged observations are of one vulnerability. -/
theorem sameVulnerability_of_merged (hdigest : digest.Injective)
    (h : Merged digest observations o o') :
    SameVulnerability o.toObservation o'.toObservation := by
  obtain ⟨entry, hentry, hmem, hmem'⟩ := h
  rw [(mem_correlated hentry).2.1, List.mem_filter, decide_eq_true_eq] at hmem hmem'
  exact (observationFingerprint_eq_iff hdigest).mp (hmem.2.trans hmem'.2.symm)

/-- Observations of one vulnerability share an identifier, or have none. -/
theorem SameVulnerability.shares {o o' : Observation} (h : SameVulnerability o o') :
    o.SharesIdentifier o' ∨ o.Unidentified ∧ o'.Unidentified := by
  cases hcwe : o.cwe with
  | cons cwe rest =>
    have hmem : cwe ∈ o.cwe := hcwe ▸ List.mem_cons_self
    exact .inl (.inl ⟨cwe, hmem, h.cwe.mem_iff.mp hmem⟩)
  | nil =>
    cases hcve : o.cve with
    | cons cve rest =>
      have hmem : cve ∈ o.cve := hcve ▸ List.mem_cons_self
      exact .inl (.inr ⟨cve, hmem, h.cve.mem_iff.mp hmem⟩)
    | nil =>
      refine .inr ⟨⟨hcwe, hcve⟩, ?_, ?_⟩
      · exact List.nil_perm.mp (hcwe ▸ h.cwe)
      · exact List.nil_perm.mp (hcve ▸ h.cve)

/-- Two observations with one fingerprint are one finding, under the title of the first. -/
theorem titles_correlate_pair {o o' : Observation}
    (h : observationFingerprint digest o = observationFingerprint digest o') :
    (correlate digest [o, o']).map Finding.title = [o.title] := by
  simp [correlate, groupByFingerprint, insertGroup, h, findingOfGroup]

end Spec

/-- **Merged observations** are on one asset, and share a CWE or CVE id or have none at all, whatever
rules reported them. Observations on one asset that list their identifiers once are merged when these
are the same, also when there are none. -/
theorem merged_observations_share {H : Sha256} (hinjective : Function.Injective H.hexdigest)
    (observations : List ReportedObservation) :
    (∀ o o', Merged (canonicalFingerprint H) observations o o' →
      o.assetIdentity = o'.assetIdentity ∧
        (o.SharesIdentifier o'.toObservation ∨
          o.Unidentified ∧ o'.Unidentified)) ∧
      ∀ o ∈ observations, ∀ o' ∈ observations, o.assetIdentity = o'.assetIdentity →
        o.cwe.Nodup → o'.cwe.Nodup → o.cve.Nodup → o'.cve.Nodup →
        (∀ cwe, cwe ∈ o.cwe ↔ cwe ∈ o'.cwe) → (∀ cve, cve ∈ o.cve ↔ cve ∈ o'.cve) →
          Merged (canonicalFingerprint H) observations o o' := by
  have hdigest := injective_canonicalFingerprint hinjective
  constructor
  · intro o o' hmerged
    have hsame := sameVulnerability_of_merged hdigest hmerged
    exact ⟨hsame.asset, hsame.shares⟩
  · intro o ho o' ho' hasset hcwe hcwe' hcve hcve' hsameCwe hsameCve
    rw [merged_iff ho ho', observationFingerprint_eq_iff hdigest]
    -- Lists without repetition and with the same members are equal up to order.
    exact ⟨hasset, (List.perm_ext_iff_of_nodup hcwe hcwe').mpr hsameCwe,
      (List.perm_ext_iff_of_nodup hcve hcve').mpr hsameCve⟩

/-- A tool reports something without any identifier. -/
def listingReport : ReportedObservation :=
  { externalId := "obs-1", assetIdentity := "https://shop.example/", title := "directory listing"
    severity := .low, ruleId := "dir-listing" }

/-- Another rule reports something that has nothing to do with it. -/
def loginReport : ReportedObservation :=
  { externalId := "obs-2", assetIdentity := "https://shop.example/", title := "default credentials"
    severity := .critical, ruleId := "default-login" }

theorem listingReport_merged_loginReport :
    Merged (canonicalFingerprint codeDigest) [listingReport, loginReport] listingReport loginReport :=
  (merged_iff List.mem_cons_self (List.mem_cons_of_mem _ List.mem_cons_self)).mpr rfl

/-- They share nothing but the asset, and are merged. -/
theorem unidentifiedReports_merged :
    listingReport.ruleId ≠ loginReport.ruleId ∧
      ¬listingReport.SharesIdentifier loginReport.toObservation ∧
      Merged (canonicalFingerprint codeDigest) [listingReport, loginReport] listingReport loginReport ∧
      (correlate (canonicalFingerprint codeDigest)
        ([listingReport, loginReport].map ReportedObservation.toObservation)).map Finding.title =
          ["directory listing"] := by
  refine ⟨by decide, ?_, listingReport_merged_loginReport, titles_correlate_pair rfl⟩
  rintro (⟨cwe, hmem, -⟩ | ⟨cve, hmem, -⟩)
  · cases hmem
  · cases hmem

theorem unidentifiedReports_share :
    listingReport.assetIdentity = loginReport.assetIdentity ∧
      (listingReport.SharesIdentifier loginReport.toObservation ∨
        listingReport.Unidentified ∧ loginReport.Unidentified) :=
  (merged_observations_share injective_codeDigest [listingReport, loginReport]).1 listingReport
    loginReport listingReport_merged_loginReport

end SecOpent
