import SecOpent.Findings.ChainMatching

/-!
# Confirmed chains

Only a validated finding fills a link. A chain is confirmed if all its links are filled, whether a
template or a proposal made it, and its severity is then the maximum over the findings it binds.

## Main definitions

* `Backed`: the confirmed links of a chain are ids of validated findings, and its severity is composed
  of theirs
* `boundFindings`: the findings that the links of a chain name

## Main results

* `backed_of_matchTemplate`, `backed_of_chainOfProposal`: both sources give such chains
* `compositeSeverity_spec`: the composite severity is the maximum
* `confirmed_chain_spec`: the two for confirmed chains
-/

namespace SecOpent

open Python Matching

/-! ## Severities -/

/-- What the fold of `max` keeps: the best so far. -/
theorem foldl_topSeverity_spec (first : Severity) (rest : List Severity) :
    let top := rest.foldl (fun top s => if top.rank < s.rank then s else top) first
    top ∈ first :: rest ∧ ∀ s ∈ first :: rest, s.rank ≤ top.rank := by
  induction rest generalizing first with
  | nil => simp
  | cons next rest ih =>
    -- The fold goes on with the better of the first two.
    obtain ⟨hmem, hbound⟩ := ih (if first.rank < next.rank then next else first)
    rw [List.foldl_cons]
    refine ⟨?_, ?_⟩
    · rcases List.mem_cons.mp hmem with heq | hmem
      · rw [heq]
        split
        · exact List.mem_cons_of_mem _ List.mem_cons_self
        · exact List.mem_cons_self
      · exact List.mem_cons_of_mem _ (List.mem_cons_of_mem _ hmem)
    · have hstep := hbound _ List.mem_cons_self
      intro s hs
      rcases List.mem_cons.mp hs with rfl | hs
      · refine le_trans ?_ hstep
        split <;> omega
      · rcases List.mem_cons.mp hs with rfl | hs
        · refine le_trans ?_ hstep
          split <;> omega
        · exact hbound s (List.mem_cons_of_mem _ hs)

/-- **The composite severity is the maximum.** -/
theorem compositeSeverity_spec {severities : List Severity} (hne : severities ≠ []) :
    compositeSeverity severities ∈ severities ∧
      ∀ s ∈ severities, s.rank ≤ (compositeSeverity severities).rank := by
  obtain ⟨first, rest, rfl⟩ := List.exists_cons_of_ne_nil hne
  exact foldl_topSeverity_spec first rest

/-! ## Findings by id -/

variable {findings : List CheckedFinding}

/-- Of the findings with one id, the last one counts. -/
theorem findingsById_get? (findings : List CheckedFinding) (id : String) :
    (findingsById findings).get? id = findings.reverse.find? fun f => f.id = id :=
  Dict.get?_ofItems_map (fun f : CheckedFinding => f.id) findings id

theorem mem_of_findingsById {id : String} {f : CheckedFinding}
    (h : (findingsById findings).get? id = some f) : f ∈ findings ∧ f.id = id := by
  rw [findingsById_get?] at h
  exact ⟨List.mem_reverse.mp (List.mem_of_find?_eq_some h), by simpa using List.find?_some h⟩

theorem findingsById_eq_some_of_mem {f : CheckedFinding} (hf : f ∈ findings) :
    ∃ f', (findingsById findings).get? f.id = some f' := by
  rw [findingsById_get?]
  exact Option.isSome_iff_exists.mp (List.find?_isSome.mpr ⟨f, List.mem_reverse.mpr hf, by simp⟩)

theorem mem_validatedFindings {f : CheckedFinding} :
    f ∈ validatedFindings findings ↔ f ∈ findings ∧ f.status = .validated := by
  rw [validatedFindings, List.mem_filter, decide_eq_true_iff]

/-! ## Both sources -/

/-- Every confirmed link is the id of one of the findings, and they give the chain its status and its
severity. -/
structure Backed (validated : List CheckedFinding) (chain : AttackChain) : Prop where
  link_id : ∀ link ∈ chain.links, link.isConfirmed = true →
    ∃ f ∈ validated, f.id = link.confirmedFindingId
  status : chain.status = chainStatus chain.links
  severity : chain.severity =
    compositeSeverity (confirmedSeverities (findingsById validated) chain.links)

section Sources

variable {uuids : ChainUuids} {number : ℕ} {validated : List CheckedFinding} {chain : AttackChain}

/-- A link that is confirmed is bound to what it was made of. -/
theorem exists_of_isConfirmed_elim {hex : String} {bound : Option CheckedFinding}
    (h : (bound.elim (ChainLink.pending hex) .bound).isConfirmed = true) :
    ∃ f, bound = some f ∧ f.id = (bound.elim (ChainLink.pending hex) .bound).confirmedFindingId := by
  cases bound with
  | none => cases h
  | some f => exact ⟨f, rfl, rfl⟩

theorem backed_of_matchTemplate {template : AttackChainTemplate}
    (h : ChainEngine.matchTemplate uuids number template validated = some chain) :
    Backed validated chain := by
  rw [ChainEngine.matchTemplate] at h
  split at h
  next =>
    obtain rfl := Option.some.inj h
    refine ⟨fun link hlink hconfirmed => ?_, rfl, rfl⟩
    obtain ⟨i, hi, rfl⟩ := List.mem_mapIdx.mp hlink
    obtain ⟨f, hbound, hid⟩ := exists_of_isConfirmed_elim hconfirmed
    have hmem : some f ∈ bindLinks validated template.links 0 := hbound ▸ List.getElem_mem hi
    rw [bindLinks_eq, List.drop_zero] at hmem
    exact ⟨f, mem_of_mem_bindings hmem, hid⟩
  next => cases h

theorem backed_of_chainOfProposal {proposal : ChainProposal}
    (h : ChainEngine.chainOfProposal uuids number (findingsById validated) proposal = some chain) :
    Backed validated chain := by
  rw [ChainEngine.chainOfProposal] at h
  split at h
  next => cases h
  next =>
    obtain rfl := Option.some.inj h
    refine ⟨fun link hlink hconfirmed => ?_, rfl, rfl⟩
    obtain ⟨i, hi, rfl⟩ := List.mem_mapIdx.mp hlink
    obtain ⟨f, hbound, hid⟩ := exists_of_isConfirmed_elim hconfirmed
    exact ⟨f, (mem_of_findingsById hbound).1, hid⟩

/-- Every chain of the engine is backed by the validated findings. -/
theorem backed_of_mem {engine : ChainEngine} {uuids' : ChainUuids} {proposals : List ChainProposal}
    (h : chain ∈ engine.hypothesizeFromFindings uuids findings ++
      ChainEngine.hypothesizeFromProposals uuids' proposals findings) :
    Backed (validatedFindings findings) chain := by
  rcases List.mem_append.mp h with h | h
  · obtain ⟨entry, -, hentry⟩ := List.mem_filterMap.mp h
    exact backed_of_matchTemplate hentry
  · obtain ⟨entry, -, hentry⟩ := List.mem_filterMap.mp h
    exact backed_of_chainOfProposal hentry

end Sources

/-! ## What a confirmed chain binds -/

/-- The findings that the links of a chain name. -/
def boundFindings (chain : AttackChain) (findings : List CheckedFinding) : List CheckedFinding :=
  findings.filter fun f => chain.links.any fun link =>
    link.isConfirmed && decide (link.confirmedFindingId = f.id)

theorem mem_boundFindings {chain : AttackChain} {f : CheckedFinding} :
    f ∈ boundFindings chain findings ↔ f ∈ findings ∧
      ∃ link ∈ chain.links, link.isConfirmed = true ∧ link.confirmedFindingId = f.id := by
  simp [boundFindings]

/-- With distinct ids, a finding is the one that its id is looked up to. -/
theorem findingsById_of_nodup (hids : (findings.map fun f => f.id).Nodup) {f : CheckedFinding}
    (hf : f ∈ findings) : (findingsById findings).get? f.id = some f := by
  obtain ⟨f', hf'⟩ := findingsById_eq_some_of_mem hf
  obtain ⟨hmem, hid⟩ := mem_of_findingsById hf'
  rw [hf', List.inj_on_of_nodup_map hids hmem hf hid]

theorem nodup_validatedFindings (hids : (findings.map fun f => f.id).Nodup) :
    ((validatedFindings findings).map fun f => f.id).Nodup :=
  hids.sublist (List.filter_sublist.map _)

/-- With distinct ids, the severities of a chain are those of the findings it binds. -/
theorem mem_confirmedSeverities {validated : List CheckedFinding} {chain : AttackChain}
    (hids : (validated.map fun f => f.id).Nodup) {s : Severity} :
    s ∈ confirmedSeverities (findingsById validated) chain.links ↔
      ∃ f ∈ boundFindings chain validated, f.severity = s := by
  rw [confirmedSeverities, List.mem_filterMap]
  constructor
  · rintro ⟨link, hlink, hs⟩
    split at hs
    next hconfirmed =>
      obtain ⟨f, hf, rfl⟩ := Option.map_eq_some_iff.mp hs
      obtain ⟨hmem, hid⟩ := mem_of_findingsById hf
      exact ⟨f, mem_boundFindings.mpr ⟨hmem, link, hlink, hconfirmed, hid.symm⟩, rfl⟩
    next => cases hs
  · rintro ⟨f, hf, rfl⟩
    obtain ⟨hmem, link, hlink, hconfirmed, hid⟩ := mem_boundFindings.mp hf
    refine ⟨link, hlink, ?_⟩
    rw [if_pos hconfirmed, hid, findingsById_of_nodup hids hmem]
    rfl

/-- With distinct ids, what a chain binds is validated. -/
theorem mem_validatedFindings_of_bound {chain : AttackChain}
    (hids : (findings.map fun f => f.id).Nodup) (hbacked : Backed (validatedFindings findings) chain)
    {f : CheckedFinding} (hf : f ∈ boundFindings chain findings) :
    f ∈ boundFindings chain (validatedFindings findings) := by
  obtain ⟨hmem, link, hlink, hconfirmed, hid⟩ := mem_boundFindings.mp hf
  -- The link is backed by a validated finding with the same id, which is this one.
  obtain ⟨f', hf', hid'⟩ := hbacked.link_id link hlink hconfirmed
  obtain rfl := List.inj_on_of_nodup_map hids hmem (mem_validatedFindings.mp hf').1
    (hid.symm.trans hid'.symm)
  exact mem_boundFindings.mpr ⟨hf', link, hlink, hconfirmed, hid⟩

theorem boundFindings_subset {chain : AttackChain} {f : CheckedFinding}
    (hf : f ∈ boundFindings chain (validatedFindings findings)) : f ∈ boundFindings chain findings := by
  obtain ⟨hmem, hlink⟩ := mem_boundFindings.mp hf
  exact mem_boundFindings.mpr ⟨(mem_validatedFindings.mp hmem).1, hlink⟩

/-- A confirmed chain has a severity to compose. -/
theorem confirmedSeverities_ne_nil {validated : List CheckedFinding} {chain : AttackChain}
    (hids : (validated.map fun f => f.id).Nodup) (hbacked : Backed validated chain)
    (hconfirmed : ∀ link ∈ chain.links, link.isConfirmed = true) :
    confirmedSeverities (findingsById validated) chain.links ≠ [] := by
  have hlinks : chain.links ≠ [] := by
    intro h
    have htwo := chain.two_links
    rw [h] at htwo
    exact absurd htwo (by decide)
  obtain ⟨link, rest, hcons⟩ := List.exists_cons_of_ne_nil hlinks
  have hlink : link ∈ chain.links := hcons ▸ List.mem_cons_self
  obtain ⟨f, hf, hid⟩ := hbacked.link_id link hlink (hconfirmed link hlink)
  have hbound : f ∈ boundFindings chain validated :=
    mem_boundFindings.mpr ⟨hf, link, hlink, hconfirmed link hlink, hid.symm⟩
  exact List.ne_nil_of_mem ((mem_confirmedSeverities hids).mpr ⟨f, hbound, rfl⟩)

/-- **A confirmed chain rests on validated findings alone**, and its severity is the maximum of the
severities of the findings it binds, whichever source it comes from. -/
theorem confirmed_chain_spec (engine : ChainEngine) (uuids uuids' : ChainUuids)
    (findings : List CheckedFinding) (proposals : List ChainProposal)
    (hids : (findings.map fun f => f.id).Nodup) :
    ∀ chain ∈ engine.hypothesizeFromFindings uuids findings ++
        ChainEngine.hypothesizeFromProposals uuids' proposals findings,
      chain.status = .confirmed →
      (∀ link ∈ chain.links, ∃ f ∈ findings, f.status = .validated ∧
        link.confirmedFindingId = f.id) ∧
      (∃ f ∈ boundFindings chain findings, f.severity = chain.severity) ∧
      ∀ f ∈ boundFindings chain findings, f.severity.rank ≤ chain.severity.rank := by
  intro chain hchain hstatus
  -- Which source the chain is from does not matter from here on.
  have hbacked := backed_of_mem hchain
  rw [hbacked.status, chainStatus_eq_confirmed_iff] at hstatus
  have hvalidated := nodup_validatedFindings hids
  obtain ⟨hmem, hbound⟩ :=
    compositeSeverity_spec (confirmedSeverities_ne_nil hvalidated hbacked hstatus)
  rw [← hbacked.severity] at hmem hbound
  refine ⟨fun link hlink => ?_, ?_, fun f hf => ?_⟩
  · obtain ⟨f, hf, hid⟩ := hbacked.link_id link hlink (hstatus link hlink)
    obtain ⟨hf, hvalid⟩ := mem_validatedFindings.mp hf
    exact ⟨f, hf, hvalid, hid.symm⟩
  · obtain ⟨f, hf, hsev⟩ := (mem_confirmedSeverities hvalidated).mp hmem
    exact ⟨f, boundFindings_subset hf, hsev⟩
  · exact hbound _ ((mem_confirmedSeverities hvalidated).mpr
      ⟨f, mem_validatedFindings_of_bound hids hbacked hf, rfl⟩)

/-- A finding of a test, on one host. -/
def sampleFinding (id : String) (severity : Severity) (cwe : String) (status : FindingStatus)
    (hid : id ≠ "") : CheckedFinding where
  id := id
  fingerprint := "sha256:0"
  title := "finding"
  asset := "host.example"
  severity := severity
  cwe := [cwe]
  cve := []
  owasp := []
  observationIds := []
  status := status
  id_ne := hid
  fingerprint_ne := by decide
  title_ne := by decide
  asset_ne := by decide

/-- `auth-bypass-plus-idor`. -/
def authBypassPlusIdor : AttackChainTemplate where
  id := "auth-bypass-plus-idor"
  links := [{ cweAny := ["CWE-287", "CWE-288"] }, { cweAny := ["CWE-639", "CWE-284"] }]
  id_ne := by decide
  two_links := by decide

/-- A validated bypass, a validated reference that can be guessed, and a candidate. -/
def sampleFindings : List CheckedFinding :=
  [sampleFinding "finding-1" .medium "CWE-287" .validated (by decide),
    sampleFinding "finding-2" .high "CWE-639" .validated (by decide),
    sampleFinding "finding-3" .critical "CWE-639" .candidate (by decide)]

/-- UUIDs of a test. -/
def sampleUuids : ChainUuids where
  chain := fun _ => "0000000000000000"
  link := fun _ _ => "0000000000000000"

theorem sample_chain_spec :
    (∃ chain ∈ (ChainEngine.mk [authBypassPlusIdor]).hypothesizeFromFindings sampleUuids sampleFindings,
      chain.status = .confirmed ∧ chain.severity = .high) ∧
    ∀ chain ∈
      (ChainEngine.mk [authBypassPlusIdor]).hypothesizeFromFindings sampleUuids sampleFindings ++
        ChainEngine.hypothesizeFromProposals sampleUuids
          [⟨"peer:strix", "free", ["finding-2", "finding-1"]⟩] sampleFindings,
      chain.status = .confirmed →
      (∀ link ∈ chain.links, ∃ f ∈ sampleFindings, f.status = .validated ∧
        link.confirmedFindingId = f.id) ∧
      (∃ f ∈ boundFindings chain sampleFindings, f.severity = chain.severity) ∧
      ∀ f ∈ boundFindings chain sampleFindings, f.severity.rank ≤ chain.severity.rank :=
  ⟨by decide +kernel, confirmed_chain_spec _ _ _ _ _ (by decide)⟩

end SecOpent
