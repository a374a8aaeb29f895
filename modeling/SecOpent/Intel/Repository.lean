import SecOpent.Audit.Events
import SecOpent.Python.Table
import SecOpent.Scope.Enforcement
import SecOpent.Transition.Conditions

/-!
# The intelligence repository

`domain/intel/models.py` and `SqlAlchemyIntelRepository.add_vulnerability`: records of several feeds
land on one row for each CVE, with child rows for its products, signals and mappings. Adding a record
replaces all of them. What the row says is what the last record said.

## Main definitions

* `Vulnerability`: a record, with the bounds that its constructor checks
* `IntelDatabase`, `addVulnerability`, `getVulnerability`
* `latestReading`, `everFlagged`: what a merge of the sources would keep
* `Covers`, `OneSource`: the conditions under which nothing is lost, and no order matters

## Main results

* `getVulnerability_add`: what is read after a record is added
* `sources_kept_iff`: every source is kept, in any order, exactly if each record covers the one that it
  replaces and each CVE has one source
-/

namespace SecOpent

open Python Transition

/-! ## Records -/

/-- `Provenance`. -/
structure Provenance where
  source : String
  fetchedAt : DateTime
  sourceVersion : String
  source_ne : source ≠ ""
  sourceVersion_ne : sourceVersion ≠ ""

/-- A value of `Vulnerability.cvss`. -/
structure CvssReading where
  score : ℚ
  provenance : Provenance
  bounds : 0 ≤ score ∧ score ≤ 10

/-- `AffectedProduct`. -/
structure AffectedProduct where
  vendor : String
  product : String
  cpe : Option String
  package : Option String
  versionRange : String
  fixedVersions : List String
  vendor_ne : vendor ≠ ""
  product_ne : product ≠ ""

/-- `ExploitationSignal`. -/
structure ExploitationSignal where
  kev : Bool
  epssScore : ℚ
  publicExploit : Bool
  ransomware : Bool
  activeExploitation : Bool
  bounds : 0 ≤ epssScore ∧ epssScore ≤ 1

/-- The flags of a signal. -/
inductive ExploitationFlag
  | kev | publicExploit | ransomware | activeExploitation
  deriving DecidableEq

/-- The value of a flag. -/
def ExploitationSignal.flag (signal : ExploitationSignal) : ExploitationFlag → Bool
  | .kev => signal.kev
  | .publicExploit => signal.publicExploit
  | .ransomware => signal.ransomware
  | .activeExploitation => signal.activeExploitation

/-- `DetectionMapping`. -/
structure DetectionMapping where
  vulnerabilityId : String
  caseVersion : String
  detectionType : String
  risk : RiskClass
  confidence : ℚ
  vulnerabilityId_ne : vulnerabilityId ≠ ""
  caseVersion_ne : caseVersion ≠ ""
  detectionType_ne : detectionType ≠ ""
  bounds : 0 ≤ confidence ∧ confidence ≤ 1

/-- The columns of `CoreVulnerability`; the constructor of a record has removed repeated aliases. -/
structure VulnerabilityRow where
  canonicalId : String
  aliases : List String
  description : String
  cvss : Dict String CvssReading
  cwe : List String
  references : List String
  publishedAt : DateTime
  provenance : Provenance
  digest : String
  canonicalId_ne : canonicalId ≠ ""
  aliases_nodup : aliases.Nodup
  cvss_ne : ∀ reading, cvss.get? "" ≠ some reading

/-- `Vulnerability`. -/
structure Vulnerability extends VulnerabilityRow where
  affectedProducts : List AffectedProduct
  exploitationSignal : ExploitationSignal
  detectionMappings : List DetectionMapping

/-! ## Child tables -/

section Children

variable {α : Type}

/-- The rows of a child table with this `vulnerability_id`. -/
def childrenOf (id : String) (rows : List (String × α)) : List α :=
  (rows.filter fun row => row.1 = id).map Prod.snd

/-- `DELETE FROM … WHERE vulnerability_id = :cid`, and the new rows. -/
def replaceChildren (id : String) (children : List α) (rows : List (String × α)) :
    List (String × α) :=
  (rows.filter fun row => row.1 ≠ id) ++ children.map fun child => (id, child)

theorem childrenOf_map (id : String) (children : List α) :
    childrenOf id (children.map fun child => (id, child)) = children := by
  simp [childrenOf, List.filter_map, Function.comp_def]

theorem childrenOf_replaceChildren (id other : String) (children : List α)
    (rows : List (String × α)) : childrenOf other (replaceChildren id children rows) =
      if other = id then children else childrenOf other rows := by
  unfold replaceChildren
  rw [childrenOf, List.filter_append, List.map_append, List.filter_filter, ← childrenOf]
  by_cases hother : other = id
  · subst hother
    rw [childrenOf_map]
    simp
  · have hold : ∀ row : String × α, (decide (row.1 = other) && decide (row.1 ≠ id)) =
        decide (row.1 = other) := by
      intro row
      by_cases hrow : row.1 = other
      · simp [hrow, hother]
      · simp [hrow]
    have hnew : childrenOf other (children.map fun child => (id, child)) = [] := by
      have hne : ¬id = other := fun h => hother h.symm
      simp [childrenOf, List.filter_map, Function.comp_def, hne]
    rw [hnew, List.append_nil, if_neg hother]
    simp only [hold]
    rfl

end Children

/-! ## The repository -/

/-- The tables of the repository; the search index is left out. -/
structure IntelDatabase where
  vulnerabilities : Table VulnerabilityRow VulnerabilityRow.canonicalId := .empty
  affectedProducts : List (String × AffectedProduct) := []
  exploitationSignals : List (String × ExploitationSignal) := []
  detectionMappings : List (String × DetectionMapping) := []

namespace IntelDatabase

/-- `add_vulnerability`. -/
def addVulnerability (db : IntelDatabase) (vuln : Vulnerability) : IntelDatabase where
  vulnerabilities := db.vulnerabilities.put vuln.toVulnerabilityRow
  affectedProducts := replaceChildren vuln.canonicalId vuln.affectedProducts db.affectedProducts
  exploitationSignals :=
    replaceChildren vuln.canonicalId [vuln.exploitationSignal] db.exploitationSignals
  detectionMappings := replaceChildren vuln.canonicalId vuln.detectionMappings db.detectionMappings

/-- The signal of a row that has none. -/
def noSignal : ExploitationSignal := ⟨false, 0, false, false, false, by norm_num⟩

/-- `_to_vulnerability`; a mapping is read with the id of its row. -/
def toVulnerability (db : IntelDatabase) (row : VulnerabilityRow) : Vulnerability where
  toVulnerabilityRow := row
  affectedProducts := childrenOf row.canonicalId db.affectedProducts
  exploitationSignal := (childrenOf row.canonicalId db.exploitationSignals).headD noSignal
  detectionMappings := (childrenOf row.canonicalId db.detectionMappings).map fun mapping =>
    { mapping with
      vulnerabilityId := row.canonicalId
      vulnerabilityId_ne := row.canonicalId_ne }

/-- `get_vulnerability`. -/
def getVulnerability (db : IntelDatabase) (canonicalId : String) : Option Vulnerability :=
  (db.vulnerabilities.get? canonicalId).map db.toVulnerability

/-- A record as it is read back. -/
def stored (vuln : Vulnerability) : Vulnerability :=
  { vuln with
    detectionMappings := vuln.detectionMappings.map fun mapping =>
      { mapping with
        vulnerabilityId := vuln.canonicalId
        vulnerabilityId_ne := vuln.canonicalId_ne } }

/-- **Adding a record replaces what is read of its CVE**, and of no other one. -/
theorem getVulnerability_add (db : IntelDatabase) (vuln : Vulnerability) (id : String) :
    (db.addVulnerability vuln).getVulnerability id =
      if id = vuln.canonicalId then some (stored vuln) else db.getVulnerability id := by
  unfold getVulnerability
  rw [addVulnerability, Table.get?_put]
  by_cases hid : id = vuln.canonicalId
  · simp only [if_pos hid, Option.map_some]
    simp [toVulnerability, childrenOf_replaceChildren, stored]
  · simp only [if_neg hid]
    cases hrow : db.vulnerabilities.get? id with
    | none => rfl
    | some row =>
      have hkey : row.canonicalId ≠ vuln.canonicalId := by
        rw [Table.key_of_get? hrow]
        exact hid
      simp [toVulnerability, childrenOf_replaceChildren, hkey]

/-- `add_vulnerability` as a step. -/
def step (db : IntelDatabase) (vuln : Vulnerability) : Option IntelDatabase :=
  some (db.addVulnerability vuln)

/-- The repository after a sequence of records. -/
def addAll (db : IntelDatabase) (vulns : List Vulnerability) : IntelDatabase :=
  vulns.foldl addVulnerability db

/-- The reading of a source, as it is read back. -/
def reading? (db : IntelDatabase) (id source : String) : Option CvssReading :=
  (db.getVulnerability id).bind fun vuln => vuln.cvss.get? source

/-- A flag, as it is read back. -/
def flagged (db : IntelDatabase) (id : String) (flag : ExploitationFlag) : Bool :=
  ((db.getVulnerability id).map fun vuln => vuln.exploitationSignal.flag flag).getD false

theorem reading?_add (db : IntelDatabase) (vuln : Vulnerability) (id source : String) :
    (db.addVulnerability vuln).reading? id source =
      if id = vuln.canonicalId then vuln.cvss.get? source else db.reading? id source := by
  unfold reading?
  rw [getVulnerability_add]
  split
  · rfl
  · rfl

theorem flagged_add (db : IntelDatabase) (vuln : Vulnerability) (id : String)
    (flag : ExploitationFlag) : (db.addVulnerability vuln).flagged id flag =
      if id = vuln.canonicalId then vuln.exploitationSignal.flag flag else db.flagged id flag := by
  unfold flagged
  rw [getVulnerability_add]
  split
  · rfl
  · rfl

end IntelDatabase

/-! ## Nothing is lost -/

section Sources

variable (db : IntelDatabase)

/-- The most recent reading of a source on a CVE. -/
def latestReading (id source : String) (vulns : List Vulnerability) : Option CvssReading :=
  vulns.foldl
    (fun latest vuln =>
      if id = vuln.canonicalId then (vuln.cvss.get? source).orElse fun _ => latest else latest)
    (db.reading? id source)

/-- A flag was reported on a CVE. -/
def everFlagged (id : String) (flag : ExploitationFlag) (vulns : List Vulnerability) : Bool :=
  db.flagged id flag ||
    vulns.any fun vuln => decide (id = vuln.canonicalId) && vuln.exploitationSignal.flag flag

/-- After every record, the most recent reading of each source and every flag can be read. -/
def KeepsSources (vulns : List Vulnerability) : Prop :=
  ∀ before after, vulns = before ++ after →
    (∀ id source reading, latestReading db id source before = some reading →
      (db.addAll before).reading? id source = some reading) ∧
    ∀ id flag, everFlagged db id flag before = true → (db.addAll before).flagged id flag = true

/-- The record has a reading for each source, and each flag, of the record that it replaces. -/
def Covers (vuln : Vulnerability) : Prop :=
  (∀ source, (db.reading? vuln.canonicalId source).isSome = true →
    (vuln.cvss.get? source).isSome = true) ∧
  ∀ flag, db.flagged vuln.canonicalId flag = true → vuln.exploitationSignal.flag flag = true

variable {db} {vuln : Vulnerability} {vulns : List Vulnerability}

theorem kept_nil :
    (∀ id source reading, latestReading db id source [] = some reading →
      (db.addAll []).reading? id source = some reading) ∧
    ∀ id flag, everFlagged db id flag [] = true → (db.addAll []).flagged id flag = true := by
  refine ⟨fun _ _ _ h => h, fun id flag h => ?_⟩
  rw [everFlagged, List.any_nil, Bool.or_false] at h
  exact h

/-- After a record that covers the old one, the history may begin with what is read. -/
theorem latestReading_cons (h : Covers db vuln) (id source : String) :
    latestReading db id source (vuln :: vulns) =
      latestReading (db.addVulnerability vuln) id source vulns := by
  unfold latestReading
  rw [List.foldl_cons, IntelDatabase.reading?_add]
  congr 1
  split
  next hid =>
    subst hid
    cases hreading : vuln.cvss.get? source with
    | some reading => rfl
    | none =>
      cases hold : db.reading? vuln.canonicalId source with
      | none => rfl
      | some old =>
        have hsome := h.1 source (by rw [hold]; rfl)
        rw [hreading] at hsome
        cases hsome
  next => rfl

theorem everFlagged_cons (h : Covers db vuln) (id : String) (flag : ExploitationFlag) :
    everFlagged db id flag (vuln :: vulns) =
      everFlagged (db.addVulnerability vuln) id flag vulns := by
  unfold everFlagged
  rw [List.any_cons, ← Bool.or_assoc, IntelDatabase.flagged_add]
  congr 1
  split
  next hid =>
    subst hid
    cases hold : db.flagged vuln.canonicalId flag with
    | false => simp
    | true => simp [h.2 flag hold]
  next hid => simp [hid]

/-- The record covers the old one exactly if nothing is lost with it. -/
theorem covers_iff : Covers db vuln ↔
    (∀ id source reading, latestReading db id source [vuln] = some reading →
      (db.addVulnerability vuln).reading? id source = some reading) ∧
    ∀ id flag, everFlagged db id flag [vuln] = true →
      (db.addVulnerability vuln).flagged id flag = true := by
  constructor
  · intro h
    refine ⟨fun id source reading hlatest => ?_, fun id flag hflag => ?_⟩
    · rw [latestReading_cons h] at hlatest
      exact hlatest
    · rw [everFlagged_cons h] at hflag
      simpa [everFlagged] using hflag
  · rintro ⟨hreadings, hflags⟩
    refine ⟨fun source hsome => ?_, fun flag hflag => ?_⟩
    · obtain ⟨old, hold⟩ := Option.isSome_iff_exists.mp hsome
      cases hreading : vuln.cvss.get? source with
      | some reading => rfl
      | none =>
        -- The old reading is still the most recent one.
        have hlatest : latestReading db vuln.canonicalId source [vuln] = some old := by
          simp [latestReading, hreading, hold]
        have hread := hreadings _ _ _ hlatest
        rw [IntelDatabase.reading?_add, if_pos rfl, hreading] at hread
        cases hread
    · have hread := hflags vuln.canonicalId flag (by simp [everFlagged, hflag])
      rw [IntelDatabase.flagged_add, if_pos rfl] at hread
      exact hread

/-- **Nothing is lost in a sequence of records exactly if each covers the one that it replaces.** -/
theorem keepsSources_iff :
    KeepsSources db vulns ↔ runMeets IntelDatabase.step Covers db vulns := by
  induction vulns generalizing db with
  | nil =>
    refine iff_of_true ?_ trivial
    intro before after hsplit
    obtain ⟨rfl, rfl⟩ := List.append_eq_nil_iff.mp hsplit.symm
    exact kept_nil
  | cons vuln vulns ih =>
    rw [runMeets]
    constructor
    · intro h
      have hcovers : Covers db vuln := covers_iff.mpr (h [vuln] vulns rfl)
      refine ⟨hcovers, fun next hnext => ?_⟩
      cases hnext
      refine ih.mp fun before after hsplit => ?_
      obtain ⟨hreadings, hflags⟩ := h (vuln :: before) after (by rw [hsplit]; rfl)
      simp only [latestReading_cons hcovers] at hreadings
      simp only [everFlagged_cons hcovers] at hflags
      exact ⟨hreadings, hflags⟩
    · rintro ⟨hcovers, hrest⟩
      have hlater := ih.mpr (hrest _ rfl)
      intro before after hsplit
      cases before with
      | nil => exact kept_nil
      | cons first before =>
        obtain ⟨rfl, hlist⟩ := List.cons.inj hsplit
        simp only [latestReading_cons hcovers, everFlagged_cons hcovers]
        exact hlater before after hlist

end Sources

/-! ## No order matters -/

section Order

/-- The source of a record. -/
def Vulnerability.source (vuln : Vulnerability) : String := vuln.provenance.source

/-- The records of one source, in their order. -/
def ofSource (source : String) (vulns : List Vulnerability) : List Vulnerability :=
  vulns.filter fun vuln => vuln.source = source

/-- The records on one CVE, in their order. -/
def ofCve (id : String) (vulns : List Vulnerability) : List Vulnerability :=
  vulns.filter fun vuln => vuln.canonicalId = id

/-- The same records, those of each source in the same order. -/
structure Reordering (vulns vulns' : List Vulnerability) : Prop where
  perm : vulns'.Perm vulns
  ofSource_eq : ∀ source, ofSource source vulns' = ofSource source vulns

/-- What is read in the end does not depend on the order of the sources. -/
def OrderIndependent (db : IntelDatabase) (vulns : List Vulnerability) : Prop :=
  ∀ vulns', Reordering vulns vulns' → ∀ id,
    (db.addAll vulns').getVulnerability id = (db.addAll vulns).getVulnerability id

/-- All records on a CVE come from one source. -/
def OneSource (vulns : List Vulnerability) : Prop :=
  ∀ vuln ∈ vulns, ∀ other ∈ vulns, vuln.canonicalId = other.canonicalId → vuln.source = other.source

variable {db : IntelDatabase} {vulns vulns' : List Vulnerability}

/-- **What is read of a CVE is the last record on it.** -/
theorem getVulnerability_addAll (db : IntelDatabase) (vulns : List Vulnerability) (id : String) :
    (db.addAll vulns).getVulnerability id =
      match (ofCve id vulns).getLast? with
      | some vuln => some (IntelDatabase.stored vuln)
      | none => db.getVulnerability id := by
  induction vulns using List.reverseRecOn with
  | nil => rfl
  | append_singleton vulns vuln ih =>
    rw [IntelDatabase.addAll, List.foldl_append, List.foldl_cons, List.foldl_nil,
      IntelDatabase.getVulnerability_add, ← IntelDatabase.addAll, ofCve, List.filter_append,
      List.filter_singleton]
    by_cases hid : id = vuln.canonicalId
    · simp [hid]
    · have hother : ¬vuln.canonicalId = id := fun h => hid h.symm
      simp [hid, hother, ih, ofCve]

/-- The records of a source moved to the end. -/
def sourceLast (source : String) (vulns : List Vulnerability) : List Vulnerability :=
  (vulns.filter fun vuln => vuln.source ≠ source) ++ ofSource source vulns

theorem reordering_sourceLast (source : String) (vulns : List Vulnerability) :
    Reordering vulns (sourceLast source vulns) := by
  constructor
  · have hperm := List.filter_append_perm (fun vuln : Vulnerability => decide (vuln.source = source))
      vulns
    simp only [← decide_not] at hperm
    exact List.perm_append_comm.trans hperm
  · intro other
    unfold sourceLast ofSource
    rw [List.filter_append, List.filter_filter, List.filter_filter]
    by_cases hother : other = source
    · -- The records of the source are all in the second part.
      subst hother
      simp
    · have hfirst : ∀ vuln : Vulnerability, (decide (vuln.source = other) &&
          decide (vuln.source ≠ source)) = decide (vuln.source = other) := by
        intro vuln
        by_cases hvuln : vuln.source = other
        · simp [hvuln, hother]
        · simp [hvuln]
      have hsecond : ∀ vuln : Vulnerability, (decide (vuln.source = other) &&
          decide (vuln.source = source)) = false := by
        intro vuln
        by_cases hvuln : vuln.source = other
        · simp [hvuln, hother]
        · simp [hvuln]
      simp only [hfirst, hsecond, List.filter_false, List.append_nil]

/-- With its records at the end, a source has the last word. -/
theorem source_of_sourceLast (db : IntelDatabase) {vuln : Vulnerability} (h : vuln ∈ vulns) :
    ∃ last, (db.addAll (sourceLast vuln.source vulns)).getVulnerability vuln.canonicalId =
      some last ∧ last.source = vuln.source := by
  have hmem : vuln ∈ ofCve vuln.canonicalId (ofSource vuln.source vulns) :=
    List.mem_filter.mpr ⟨List.mem_filter.mpr ⟨h, by simp⟩, by simp⟩
  have hne := List.ne_nil_of_mem hmem
  have hlast : (ofCve vuln.canonicalId (sourceLast vuln.source vulns)).getLast? =
      some ((ofCve vuln.canonicalId (ofSource vuln.source vulns)).getLast hne) := by
    unfold sourceLast
    rw [ofCve, List.filter_append, ← ofCve, ← ofCve, List.getLast?_append_of_ne_nil _ hne,
      List.getLast?_eq_some_getLast hne]
  refine ⟨_, by rw [getVulnerability_addAll, hlast], ?_⟩
  have hfiltered := (List.mem_filter.mp (List.getLast_mem hne)).1
  exact of_decide_eq_true (List.mem_filter.mp hfiltered).2

/-- **No order matters exactly if all records on a CVE come from one source.** -/
theorem orderIndependent_iff : OrderIndependent db vulns ↔ OneSource vulns := by
  constructor
  · intro h vuln hvuln other hother hid
    -- Either of the two sources may have the last word.
    obtain ⟨last, hlast, hsource⟩ := source_of_sourceLast db hvuln
    obtain ⟨last', hlast', hsource'⟩ := source_of_sourceLast db hother
    rw [h _ (reordering_sourceLast _ _)] at hlast hlast'
    rw [← hid, hlast] at hlast'
    cases hlast'
    exact hsource.symm.trans hsource'
  · intro h vulns' hreorder id
    rw [getVulnerability_addAll, getVulnerability_addAll]
    have hsame : ofCve id vulns' = ofCve id vulns := by
      cases hrecords : ofCve id vulns with
      | nil =>
        have hperm : (ofCve id vulns').Perm (ofCve id vulns) := hreorder.perm.filter _
        rw [hrecords] at hperm
        exact hperm.eq_nil
      | cons vuln records =>
        have hvuln : vuln ∈ ofCve id vulns := by
          rw [hrecords]
          exact List.mem_cons_self
        obtain ⟨hmem, hid⟩ := List.mem_filter.mp hvuln
        have hof : ∀ list : List Vulnerability, list.Perm vulns →
            ofCve id (ofSource vuln.source list) = ofCve id list := by
          intro list hlist
          unfold ofCve ofSource
          rw [List.filter_filter]
          refine List.filter_congr fun other hother => ?_
          by_cases hsame : other.canonicalId = id
          · have hsource := h other (hlist.mem_iff.mp hother) vuln hmem
              (hsame.trans (of_decide_eq_true hid).symm)
            simp [hsame, hsource]
          · simp [hsame]
        rw [← hrecords, ← hof vulns' hreorder.perm, ← hof vulns (List.Perm.refl _),
          hreorder.ofSource_eq]
    rw [hsame]

/-- **Every source is kept, in any order, exactly if each record covers the one that it replaces and
all records on a CVE come from one source.** -/
theorem sources_kept_iff (db : IntelDatabase) (vulns : List Vulnerability) :
    KeepsSources db vulns ∧ OrderIndependent db vulns ↔
      runMeets IntelDatabase.step Covers db vulns ∧ OneSource vulns := by
  rw [keepsSources_iff, orderIndependent_iff]

end Order

/-! ## Two feeds -/

/-- A reading of a feed. -/
def feedProvenance (source : String) (hsource : source ≠ "") : Provenance :=
  ⟨source, firstReading, "2026-08-13", hsource, by decide⟩

/-- A feed's record on one CVE, with the score of the feed. -/
def feedRecord (source : String) (hsource : source ≠ "") (score : ℚ) (kev : Bool)
    (hscore : 0 ≤ score ∧ score ≤ 10) : Vulnerability where
  canonicalId := "CVE-2026-1234"
  aliases := []
  description := "buffer overflow"
  cvss := Dict.empty.set source ⟨score, feedProvenance source hsource, hscore⟩
  cwe := []
  references := []
  publishedAt := firstReading
  provenance := feedProvenance source hsource
  digest := "sha256:" ++ source
  canonicalId_ne := by decide
  aliases_nodup := List.nodup_nil
  cvss_ne reading := by
    rw [Dict.get?_set, if_neg hsource.symm]
    exact nofun
  affectedProducts := []
  exploitationSignal := ⟨kev, 0, false, false, false, by norm_num⟩
  detectionMappings := []

/-- The national database scores the CVE, and has it among the exploited ones; another feed does not. -/
def feedRecords : List Vulnerability :=
  [feedRecord "nvd" (by decide) 7 true (by norm_num),
    feedRecord "osv" (by decide) 0 false (by norm_num)]

/-- The reading and the flag of the first feed are gone after the second one. -/
theorem second_feed_erases_first :
    (IntelDatabase.addAll {} feedRecords).reading? "CVE-2026-1234" "nvd" = none ∧
      (IntelDatabase.addAll {} feedRecords).flagged "CVE-2026-1234" .kev = false ∧
      ¬(KeepsSources {} feedRecords ∧ OrderIndependent {} feedRecords) := by
  have hread : (IntelDatabase.addAll {} feedRecords).reading? "CVE-2026-1234" "nvd" = none := by
    decide +kernel
  have hlatest : (latestReading {} "CVE-2026-1234" "nvd" feedRecords).isSome = true := by
    decide +kernel
  refine ⟨hread, by decide +kernel, fun h => ?_⟩
  obtain ⟨reading, hreading⟩ := Option.isSome_iff_exists.mp hlatest
  have hkept := (h.1 feedRecords [] (List.append_nil _).symm).1 _ _ _ hreading
  rw [hread] at hkept
  cases hkept

end SecOpent
