import Mathlib.Data.Multiset.Defs
import SecOpent.Audit.Events
import SecOpent.Findings.Correlation

/-!
# Correlation as a partition

`FindingCorrelation.correlate` groups observations by a digest of their asset and their sorted CWE and
CVE lists. Each group is the part of the observations with one fingerprint, so with an injective digest
the findings are the classes of the observations under equality of these, whatever their order.

## Main definitions

* `canonicalFingerprint`: the digest of `observation_fingerprint`
* `SameVulnerability`: what two observations of one finding have in common
* `correlated`: the findings, each with its observations
* `findingTriples`: fingerprint, severity and observations of each finding

## Main results

* `grouped_groupByFingerprint`: the groups are the classes of the fingerprint
* `isTopSeverity_maxSeverity`: the severity of a finding is the maximum
* `correlate_partitions`: the findings are a partition that does not depend on the order
-/

namespace SecOpent

open Python

/-! ## Fingerprints -/

/-- The digest of `observation_fingerprint`: that of the canonical JSON of asset, CWE and CVE. -/
def canonicalFingerprint (H : Sha256) : FingerprintDigest := fun asset cwe cve =>
  String.ofList (sha256Tag ++ H.hexdigest (Json.object
    [("asset", .text asset), ("cwe", .list (cwe.map .text)), ("cve", .list (cve.map .text))]).dumps)

/-- A digest of which no two identities have one value. -/
def FingerprintDigest.Injective (digest : FingerprintDigest) : Prop :=
  ∀ asset cwe cve asset' cwe' cve', digest asset cwe cve = digest asset' cwe' cve' →
    asset = asset' ∧ cwe = cwe' ∧ cve = cve'

theorem canonicalItems_texts (texts : List String) :
    Json.canonicalItems (texts.map .text) = texts.map .text := by
  induction texts with
  | nil => rfl
  | cons text texts ih => simp [Json.canonicalItems, Json.canonical, ih]

theorem injective_canonicalFingerprint {H : Sha256} (hinjective : Function.Injective H.hexdigest) :
    (canonicalFingerprint H).Injective := by
  intro asset cwe cve asset' cwe' cve' h
  have hdumps := hinjective (List.append_cancel_left (String.ofList_inj.mp h))
  have hperm := Json.perm_of_canonical_eq (Json.dumps_inj hdumps)
  simp only [Json.canonicalFields, Json.canonical, canonicalItems_texts] at hperm
  -- The keys are distinct, so each member is the member with the same key.
  have hasset := (hperm.mem_iff (a := ("asset", .text asset))).mp (by simp)
  have hcwe := (hperm.mem_iff (a := ("cwe", .list (cwe.map .text)))).mp (by simp)
  have hcve := (hperm.mem_iff (a := ("cve", .list (cve.map .text)))).mp (by simp)
  have htexts : Function.Injective (List.map Json.text) :=
    List.map_injective_iff.mpr fun _ _ heq => Json.text.inj heq
  simp only [List.mem_cons, Prod.mk.injEq, String.reduceEq, false_and, true_and, or_false, false_or,
    Json.text.injEq, Json.list.injEq, htexts.eq_iff, List.not_mem_nil] at hasset hcwe hcve
  exact ⟨hasset, hcwe, hcve⟩

theorem sortedTexts_eq_iff {texts texts' : List String} :
    sortedTexts texts = sortedTexts texts' ↔ texts.Perm texts' := by
  have hperm : ∀ texts, (sortedTexts texts).Perm texts := fun texts => List.mergeSort_perm texts _
  have hsorted : ∀ texts, (sortedTexts texts).Pairwise (· ≤ ·) := by
    intro texts
    refine (List.pairwise_mergeSort ?_ ?_ texts).imp of_decide_eq_true
    · intro a b c hab hbc
      exact decide_eq_true (String.le_trans (of_decide_eq_true hab) (of_decide_eq_true hbc))
    · intro a b
      simpa using String.le_total a b
  constructor
  · intro h
    exact (hperm texts).symm.trans (h ▸ hperm texts')
  · intro h
    exact List.Perm.eq_of_pairwise (fun _ _ _ _ => String.le_antisymm) (hsorted texts)
      (hsorted texts') ((hperm texts).trans (h.trans (hperm texts').symm))

/-- The same asset, and the same CWE and CVE lists up to their order. -/
structure SameVulnerability (o o' : Observation) : Prop where
  asset : o.assetIdentity = o'.assetIdentity
  cwe : o.cwe.Perm o'.cwe
  cve : o.cve.Perm o'.cve

/-- One fingerprint is one vulnerability, under an injective digest. -/
theorem observationFingerprint_eq_iff {digest : FingerprintDigest} (hdigest : digest.Injective)
    {o o' : Observation} :
    observationFingerprint digest o = observationFingerprint digest o' ↔ SameVulnerability o o' := by
  constructor
  · intro h
    obtain ⟨hasset, hcwe, hcve⟩ := hdigest _ _ _ _ _ _ h
    exact ⟨hasset, sortedTexts_eq_iff.mp hcwe, sortedTexts_eq_iff.mp hcve⟩
  · intro h
    rw [observationFingerprint, observationFingerprint, h.asset, sortedTexts_eq_iff.mpr h.cwe,
      sortedTexts_eq_iff.mpr h.cve]

/-! ## Groups -/

/-- The groups are the classes of the observations under their fingerprints. -/
structure Grouped (fingerprint : Observation → String) (observations : List Observation)
    (groups : List (String × List Observation)) : Prop where
  keys : (groups.map Prod.fst).Nodup
  group : ∀ entry ∈ groups, entry.2 = observations.filter (fun o => fingerprint o = entry.1)
  ne_nil : ∀ entry ∈ groups, entry.2 ≠ []
  covered : ∀ o ∈ observations, fingerprint o ∈ groups.map Prod.fst
  perm : (groups.flatMap Prod.snd).Perm observations

section Groups

variable {fingerprint : String} {o : Observation} {groups : List (String × List Observation)}

theorem keys_insertGroup : (insertGroup fingerprint o groups).map Prod.fst =
    if fingerprint ∈ groups.map Prod.fst then groups.map Prod.fst
    else groups.map Prod.fst ++ [fingerprint] := by
  induction groups with
  | nil => simp [insertGroup]
  | cons entry groups ih =>
    rw [insertGroup]
    split
    next heq => simp [heq]
    next hne =>
      rw [List.map_cons, ih]
      simp only [List.map_cons, List.mem_cons, Ne.symm hne, false_or]
      split <;> simp

theorem flatMap_insertGroup :
    ((insertGroup fingerprint o groups).flatMap Prod.snd).Perm (groups.flatMap Prod.snd ++ [o]) := by
  induction groups with
  | nil => simp [insertGroup]
  | cons entry groups ih =>
    rw [insertGroup]
    split
    · simp only [List.flatMap_cons, List.append_assoc]
      exact (List.perm_append_comm).append_left _
    · simp only [List.flatMap_cons, List.append_assoc]
      exact ih.append_left _

/-- The groups with other fingerprints stay as they are, and the observation is the last of its own. -/
theorem mem_insertGroup {entry : String × List Observation} (hkeys : (groups.map Prod.fst).Nodup)
    (h : entry ∈ insertGroup fingerprint o groups) :
    entry.1 ≠ fingerprint ∧ entry ∈ groups ∨
      entry.1 = fingerprint ∧
        ((∃ group, (fingerprint, group) ∈ groups ∧ entry.2 = group ++ [o]) ∨
          fingerprint ∉ groups.map Prod.fst ∧ entry.2 = [o]) := by
  induction groups with
  | nil =>
    obtain rfl := List.mem_singleton.mp h
    exact .inr ⟨rfl, .inr ⟨List.not_mem_nil, rfl⟩⟩
  | cons head groups ih =>
    rw [List.map_cons, List.nodup_cons] at hkeys
    rw [insertGroup] at h
    split at h
    next heq =>
      subst heq
      rcases List.mem_cons.mp h with rfl | h
      · exact .inr ⟨rfl, .inl ⟨_, List.mem_cons_self, rfl⟩⟩
      · refine .inl ⟨fun hkey => hkeys.1 ?_, List.mem_cons_of_mem _ h⟩
        exact hkey ▸ List.mem_map_of_mem h
    next hne =>
      rcases List.mem_cons.mp h with rfl | h
      · exact .inl ⟨hne, List.mem_cons_self⟩
      · rcases ih hkeys.2 h with ⟨hother, hmem⟩ | ⟨hkey, ⟨group, hmem, hgroup⟩ | ⟨hnew, hgroup⟩⟩
        · exact .inl ⟨hother, List.mem_cons_of_mem _ hmem⟩
        · exact .inr ⟨hkey, .inl ⟨group, List.mem_cons_of_mem _ hmem, hgroup⟩⟩
        · refine .inr ⟨hkey, .inr ⟨?_, hgroup⟩⟩
          rw [List.map_cons, List.mem_cons, not_or]
          exact ⟨Ne.symm hne, hnew⟩

end Groups

/-- One more observation. -/
theorem Grouped.insertGroup {fingerprint : Observation → String} {observations : List Observation}
    {groups : List (String × List Observation)} (h : Grouped fingerprint observations groups)
    (o : Observation) :
    Grouped fingerprint (observations ++ [o]) (insertGroup (fingerprint o) o groups) where
  keys := by
    rw [keys_insertGroup]
    split
    · exact h.keys
    next hnew =>
      exact h.keys.append (List.nodup_singleton _) (List.disjoint_singleton.mpr hnew)
  group := by
    intro entry hentry
    rw [List.filter_append]
    rcases mem_insertGroup h.keys hentry with
      ⟨hne, hmem⟩ | ⟨heq, ⟨group, hmem, hgroup⟩ | ⟨hnew, hgroup⟩⟩
    · rw [h.group entry hmem]
      simp [Ne.symm hne]
    · obtain rfl : group = observations.filter fun other => fingerprint other = fingerprint o :=
        h.group _ hmem
      rw [hgroup, heq]
      simp
    · rw [hgroup, heq, List.filter_eq_nil_iff.mpr]
      · simp
      · intro other hother hsame
        exact hnew (of_decide_eq_true hsame ▸ h.covered other hother)
  ne_nil := by
    intro entry hentry
    rcases mem_insertGroup h.keys hentry with ⟨-, hmem⟩ | ⟨-, ⟨group, -, hgroup⟩ | ⟨-, hgroup⟩⟩
    · exact h.ne_nil entry hmem
    · simp [hgroup]
    · simp [hgroup]
  covered := by
    intro other hother
    rw [keys_insertGroup]
    rcases List.mem_append.mp hother with hother | hother
    · split
      · exact h.covered other hother
      · exact List.mem_append_left _ (h.covered other hother)
    · obtain rfl := List.mem_singleton.mp hother
      split
      · assumption
      · exact List.mem_append_right _ (List.mem_singleton.mpr rfl)
  perm := flatMap_insertGroup.trans (h.perm.append_right _)

/-- **The groups of `correlate` are the classes of the fingerprint.** -/
theorem grouped_groupByFingerprint (digest : FingerprintDigest) (observations : List Observation) :
    Grouped (observationFingerprint digest) observations (groupByFingerprint digest observations) := by
  rw [groupByFingerprint]
  induction observations using List.reverseRecOn with
  | nil => exact ⟨by simp, by simp, by simp, by simp, by simp⟩
  | append_singleton observations o ih =>
    rw [List.foldl_append]
    exact ih.insertGroup o

/-! ## Findings -/

/-- The severity is the maximum over the observations. -/
def IsTopSeverity (severity : Severity) (group : List Observation) : Prop :=
  (∃ o ∈ group, o.severity = severity) ∧ ∀ o ∈ group, o.severity.rank ≤ severity.rank

theorem rank_injective : Function.Injective Severity.rank := by
  intro a b h
  cases a <;> cases b <;> first | rfl | cases h

/-- The maximum does not depend on the order. -/
theorem IsTopSeverity.unique {severity severity' : Severity} {group group' : List Observation}
    (h : IsTopSeverity severity group) (h' : IsTopSeverity severity' group')
    (hperm : group.Perm group') : severity = severity' := by
  obtain ⟨⟨o, ho, rfl⟩, hbound⟩ := h
  obtain ⟨⟨o', ho', rfl⟩, hbound'⟩ := h'
  exact rank_injective (le_antisymm (hbound' o (hperm.mem_iff.mp ho))
    (hbound o' (hperm.mem_iff.mpr ho')))

/-- What the fold over the observations keeps: the best so far. -/
theorem maxSeverity_spec (first : Severity) (group : List Observation) :
    (maxSeverity first group = first ∨ ∃ o ∈ group, o.severity = maxSeverity first group) ∧
      first.rank ≤ (maxSeverity first group).rank ∧
      ∀ o ∈ group, o.severity.rank ≤ (maxSeverity first group).rank := by
  induction group generalizing first with
  | nil => exact ⟨.inl rfl, le_refl _, by simp⟩
  | cons o group ih =>
    rw [maxSeverity, List.foldl_cons]
    obtain ⟨hreached, hfirst, hbound⟩ :=
      ih (if first.rank < o.severity.rank then o.severity else first)
    rw [maxSeverity] at hreached hfirst hbound
    refine ⟨?_, ?_, ?_⟩
    · rcases hreached with heq | ⟨o', ho', heq⟩
      · rw [heq]
        split
        · exact .inr ⟨o, List.mem_cons_self, rfl⟩
        · exact .inl rfl
      · exact .inr ⟨o', List.mem_cons_of_mem _ ho', heq⟩
    · refine le_trans ?_ hfirst
      split <;> omega
    · intro o' ho'
      rcases List.mem_cons.mp ho' with rfl | ho'
      · refine le_trans ?_ hfirst
        split <;> omega
      · exact hbound o' ho'

/-- **The severity of a finding is the maximum over its observations.** -/
theorem isTopSeverity_maxSeverity (first : Observation) (rest : List Observation) :
    IsTopSeverity (maxSeverity first.severity (first :: rest)) (first :: rest) := by
  obtain ⟨hreached, -, hbound⟩ := maxSeverity_spec first.severity (first :: rest)
  refine ⟨?_, hbound⟩
  rcases hreached with heq | hreached
  · exact ⟨first, List.mem_cons_self, heq.symm⟩
  · exact hreached

/-- The finding of each group, with the group. -/
def withFindings (groups : List (String × List Observation)) : List (Finding × List Observation) :=
  groups.filterMap fun entry =>
    entry.2.head?.map fun first => (findingOfGroup entry.1 first entry.2, entry.2)

/-- The findings of `correlate`, each with the group it is made of. -/
def correlated (digest : FingerprintDigest) (observations : List Observation) :
    List (Finding × List Observation) :=
  withFindings (groupByFingerprint digest observations)

/-- The fingerprint, the severity and the observations of each finding. -/
def findingTriples (digest : FingerprintDigest) (observations : List Observation) :
    Set (String × Severity × Multiset Observation) :=
  {triple | ∃ entry ∈ correlated digest observations,
    triple = (entry.1.fingerprint, entry.1.severity, ↑entry.2)}

section Findings

variable {digest : FingerprintDigest} {observations : List Observation}

theorem map_fst_correlated (digest : FingerprintDigest) (observations : List Observation) :
    (correlated digest observations).map Prod.fst = correlate digest observations := by
  rw [correlated, withFindings, correlate, List.map_filterMap]
  congr 1
  funext entry
  cases entry.2.head? <;> rfl

/-- A finding is that of a group: the observations with its fingerprint. -/
theorem mem_correlated {entry : Finding × List Observation}
    (h : entry ∈ correlated digest observations) :
    (entry.1.fingerprint, entry.2) ∈ groupByFingerprint digest observations ∧
      entry.2 = observations.filter (fun o => observationFingerprint digest o = entry.1.fingerprint) ∧
      entry.1.observationIds = entry.2.map Observation.externalId ∧
      IsTopSeverity entry.1.severity entry.2 := by
  obtain ⟨⟨key, group⟩, hgroup, hentry⟩ := List.mem_filterMap.mp h
  obtain ⟨first, hfirst, rfl⟩ := Option.map_eq_some_iff.mp hentry
  obtain ⟨rest, rfl⟩ := List.head?_eq_some_iff.mp hfirst
  exact ⟨hgroup, (grouped_groupByFingerprint digest observations).group _ hgroup, rfl,
    isTopSeverity_maxSeverity first rest⟩

/-- Each observation is in a finding with its fingerprint. -/
theorem exists_mem_correlated {o : Observation} (ho : o ∈ observations) :
    ∃ entry ∈ correlated digest observations,
      entry.1.fingerprint = observationFingerprint digest o := by
  have hgrouped := grouped_groupByFingerprint digest observations
  obtain ⟨⟨key, group⟩, hgroup, rfl⟩ := List.mem_map.mp (hgrouped.covered o ho)
  obtain ⟨first, rest, rfl⟩ := List.exists_cons_of_ne_nil (hgrouped.ne_nil _ hgroup)
  exact ⟨_, List.mem_filterMap.mpr ⟨_, hgroup, rfl⟩, rfl⟩

theorem flatMap_withFindings (groups : List (String × List Observation)) :
    (withFindings groups).flatMap Prod.snd = groups.flatMap Prod.snd := by
  induction groups with
  | nil => rfl
  | cons entry groups ih =>
    obtain ⟨key, group⟩ := entry
    cases group with
    | nil => exact ih
    | cons first rest => exact congrArg (first :: rest ++ ·) ih

theorem fingerprints_withFindings (groups : List (String × List Observation)) :
    ((withFindings groups).map fun entry => entry.1.fingerprint).Sublist (groups.map Prod.fst) := by
  induction groups with
  | nil => exact .slnil
  | cons entry groups ih =>
    obtain ⟨key, group⟩ := entry
    cases group with
    | nil => exact ih.cons _
    | cons first rest => exact ih.cons_cons _

/-- No two findings have one fingerprint. -/
theorem fingerprints_nodup (digest : FingerprintDigest) (observations : List Observation) :
    ((correlated digest observations).map fun entry => entry.1.fingerprint).Nodup :=
  (grouped_groupByFingerprint digest observations).keys.sublist (fingerprints_withFindings _)

/-- The findings at two places are one finding exactly if their observations have one fingerprint. -/
theorem place_eq_iff {i j : ℕ} {entry entry' : Finding × List Observation} {o o' : Observation}
    (hi : (correlated digest observations)[i]? = some entry)
    (hj : (correlated digest observations)[j]? = some entry') (ho : o ∈ entry.2)
    (ho' : o' ∈ entry'.2) :
    i = j ↔ observationFingerprint digest o = observationFingerprint digest o' := by
  have hfingerprint : ∀ {entry : Finding × List Observation} {o : Observation},
      entry ∈ correlated digest observations → o ∈ entry.2 →
      observationFingerprint digest o = entry.1.fingerprint := by
    intro entry o hentry ho
    rw [(mem_correlated hentry).2.1] at ho
    exact of_decide_eq_true (List.mem_filter.mp ho).2
  rw [hfingerprint (List.mem_of_getElem? hi) ho, hfingerprint (List.mem_of_getElem? hj) ho']
  constructor
  · rintro rfl
    rw [Option.some.inj (hi.symm.trans hj)]
  · intro heq
    have hlength : i < ((correlated digest observations).map fun e => e.1.fingerprint).length := by
      rw [List.length_map]
      exact (List.getElem?_eq_some_iff.mp hi).1
    refine (List.getElem?_inj hlength (fingerprints_nodup digest observations)).mp ?_
    rw [List.getElem?_map, List.getElem?_map, hi, hj, Option.map_some, Option.map_some, heq]

/-- Another order of the observations has the same findings. -/
theorem findingTriples_subset {observations' : List Observation}
    (hperm : observations.Perm observations') :
    findingTriples digest observations ⊆ findingTriples digest observations' := by
  rintro triple ⟨entry, hentry, rfl⟩
  obtain ⟨-, hgroup, -, htop⟩ := mem_correlated hentry
  obtain ⟨o, ho, -⟩ := htop.1
  have hobserved := ho
  rw [hgroup] at hobserved
  obtain ⟨hobserved, hfingerprint⟩ := List.mem_filter.mp hobserved
  obtain ⟨entry', hentry', hsame⟩ :=
    @exists_mem_correlated digest _ _ (hperm.mem_iff.mp hobserved)
  obtain ⟨-, hgroup', -, htop'⟩ := mem_correlated hentry'
  have hkey : entry'.1.fingerprint = entry.1.fingerprint :=
    hsame.trans (of_decide_eq_true hfingerprint)
  have hgroups : entry.2.Perm entry'.2 := by
    rw [hgroup, hgroup', hkey]
    exact hperm.filter _
  refine ⟨entry', hentry', ?_⟩
  rw [hkey, IsTopSeverity.unique htop htop' hgroups, Multiset.coe_eq_coe.mpr hgroups]

end Findings

/-- **Correlation is a partition.** Each observation is in exactly one of the groups that the findings
are made of; two observations are in one group exactly if they have the same asset and, up to order, the
same CWE and CVE lists; the severity of a finding is the maximum over its group; and fingerprints,
severities and groups do not depend on the order of the observations. -/
theorem correlate_partitions {H : Sha256} (hinjective : Function.Injective H.hexdigest)
    (observations : List Observation) :
    let digest := canonicalFingerprint H
    (correlated digest observations).map Prod.fst = correlate digest observations ∧
      ((correlated digest observations).flatMap Prod.snd).Perm observations ∧
      (∀ entry ∈ correlated digest observations,
        entry.1.observationIds = entry.2.map Observation.externalId ∧
          IsTopSeverity entry.1.severity entry.2) ∧
      (∀ (i j : ℕ) (entry entry' : Finding × List Observation),
        (correlated digest observations)[i]? = some entry →
        (correlated digest observations)[j]? = some entry' →
        ∀ o ∈ entry.2, ∀ o' ∈ entry'.2, i = j ↔ SameVulnerability o o') ∧
      ∀ observations', observations.Perm observations' →
        findingTriples digest observations = findingTriples digest observations' := by
  intro digest
  have hgrouped := grouped_groupByFingerprint digest observations
  refine ⟨map_fst_correlated digest observations, ?_, ?_, ?_, ?_⟩
  · rw [correlated, flatMap_withFindings]
    exact hgrouped.perm
  · intro entry hentry
    exact (mem_correlated hentry).2.2
  · intro i j entry entry' hi hj o ho o' ho'
    rw [place_eq_iff hi hj ho ho']
    exact observationFingerprint_eq_iff (injective_canonicalFingerprint hinjective)
  · intro observations' hperm
    exact (findingTriples_subset hperm).antisymm (findingTriples_subset hperm.symm)

/-- The same vulnerability as two tools report it. -/
def reportedTwice : List Observation :=
  [{ externalId := "obs-1", assetIdentity := "https://shop.example/", title := "injection"
     severity := .low, cwe := ["CWE-89", "CWE-20"] },
    { externalId := "obs-2", assetIdentity := "https://shop.example/", title := "sqli"
      severity := .high, cwe := ["CWE-20", "CWE-89"] }]

theorem reported_twice_partitioned :
    ((correlated (canonicalFingerprint codeDigest) reportedTwice).flatMap Prod.snd).Perm
        reportedTwice ∧
      findingTriples (canonicalFingerprint codeDigest) reportedTwice =
        findingTriples (canonicalFingerprint codeDigest) reportedTwice.reverse := by
  obtain ⟨-, hperm, -, -, horder⟩ := correlate_partitions injective_codeDigest reportedTwice
  exact ⟨hperm, horder _ (List.reverse_perm _).symm⟩

end SecOpent
