import SecOpent.Python.ZonedTime
import SecOpent.Scope.AccountExclusion

/-!
# The scope repository

`SqlAlchemyScopeRepository` of `infrastructure/repositories/sqlalchemy_core.py`: a frozen snapshot is
written to a row field by field, and built again from the row. The row has no column for cloud
accounts, and its time column has no time zone.

## Main definitions

* `ZonedSnapshot`: a snapshot with the time zone of its `approved_at`
* `CoreScopeSnapshot`, `fromSnapshot`, `toSnapshot`
* `ScopeRepository`, `addSnapshot`, `getSnapshot`
* `SameAnswers`: two snapshots answer every query alike

## Main results

* `toSnapshot_fromSnapshot`: what comes back of a snapshot
* `frozen_snapshot_kept_iff`: a frozen snapshot comes back equal exactly if its draft names no cloud
  account
-/

namespace SecOpent

open Python

/-! ## Rows -/

/-- `ScopeSnapshot` with the time zone of its `approved_at`. Snapshots are compared by the instant. -/
structure ZonedSnapshot where
  snapshot : ScopeSnapshot
  approvedAt : ZonedTime
  approvedAt_instant : approvedAt.instant = snapshot.approvedAt

/-- What `freeze` returns: `approved_at` is `utc_now()`. -/
def ScopeSnapshot.inUtc (snapshot : ScopeSnapshot) : ZonedSnapshot :=
  ⟨snapshot, .utc snapshot.approvedAt, ZonedTime.instant_utc _⟩

/-- The JSON object of the column `limits`. -/
structure LimitsColumn where
  requestsPerSecond : ℚ
  concurrency : ℤ
  maxRequests : ℤ

/-- `ScopeLimits(**row.limits)`, with the check of its constructor. -/
def LimitsColumn.build (column : LimitsColumn) : Except PyError ScopeLimits :=
  if h : 0 < column.requestsPerSecond ∧ 1 ≤ column.concurrency ∧ 1 ≤ column.maxRequests then
    .ok ⟨column.requestsPerSecond, column.concurrency, column.maxRequests, h⟩
  else .error (.domainValidation "scope limits must be positive")

/-- `CoreScopeSnapshot`; SQLite keeps the wall clock of `approved_at`. -/
structure CoreScopeSnapshot where
  id : String
  projectId : String
  includeRules : List Str
  excludeRules : List Str
  ports : List ℤ
  limits : LimitsColumn
  approvedBy : String
  approvedAt : ℤ
  digest : String

/-- `_from_snapshot`. -/
def fromSnapshot (zoned : ZonedSnapshot) : CoreScopeSnapshot where
  id := zoned.snapshot.id
  projectId := zoned.snapshot.projectId
  includeRules := zoned.snapshot.includeRules
  excludeRules := zoned.snapshot.excludeRules
  ports := zoned.snapshot.ports
  limits := ⟨zoned.snapshot.limits.requestsPerSecond, zoned.snapshot.limits.concurrency,
    zoned.snapshot.limits.maxRequests⟩
  approvedBy := zoned.snapshot.approvedBy
  approvedAt := zoned.approvedAt.wall
  digest := zoned.snapshot.digest

/-- `_to_snapshot`: `cloud_accounts` is left at its default. -/
def toSnapshot (row : CoreScopeSnapshot) : Except PyError ZonedSnapshot := do
  let limits ← row.limits.build
  pure (ScopeSnapshot.inUtc
    { id := row.id
      projectId := row.projectId
      includeRules := row.includeRules
      excludeRules := row.excludeRules
      ports := row.ports
      limits := limits
      approvedBy := row.approvedBy
      approvedAt := row.approvedAt
      digest := row.digest })

/-! ## The repository -/

/-- The rows of `core_scope_snapshots`. -/
abbrev ScopeRepository := Table CoreScopeSnapshot CoreScopeSnapshot.id

namespace ScopeRepository

/-- A table without snapshots. -/
def empty : ScopeRepository := Table.empty

/-- `add_snapshot`: `none` when the id is taken. -/
def addSnapshot (repository : ScopeRepository) (zoned : ZonedSnapshot) : Option ScopeRepository :=
  repository.insert (fromSnapshot zoned)

/-- `get_snapshot`. -/
def getSnapshot (repository : ScopeRepository) (snapshotId : String) :
    Except PyError (Option ZonedSnapshot) :=
  match repository.get? snapshotId with
  | none => pure none
  | some row => do
    let zoned ← toSnapshot row
    pure (some zoned)

end ScopeRepository

/-! ## What comes back -/

/-- What comes back of a snapshot: the wall clock is read as UTC, and no cloud account is left. -/
def ZonedSnapshot.reread (zoned : ZonedSnapshot) : ZonedSnapshot :=
  ScopeSnapshot.inUtc
    { zoned.snapshot with approvedAt := zoned.approvedAt.wall, cloudAccounts := [] }

/-- The limits of a snapshot pass the check of their constructor again. -/
theorem build_limits (limits : ScopeLimits) :
    LimitsColumn.build ⟨limits.requestsPerSecond, limits.concurrency, limits.maxRequests⟩ =
      .ok limits :=
  dif_pos limits.positive

theorem toSnapshot_fromSnapshot (zoned : ZonedSnapshot) :
    toSnapshot (fromSnapshot zoned) = .ok zoned.reread := by
  show (LimitsColumn.build _ >>= _) = _
  rw [show (fromSnapshot zoned).limits = ⟨zoned.snapshot.limits.requestsPerSecond,
    zoned.snapshot.limits.concurrency, zoned.snapshot.limits.maxRequests⟩ from rfl, build_limits]
  rfl

/-- A row is read where it was added. -/
theorem getSnapshot_addSnapshot {repository repository' : ScopeRepository} {zoned : ZonedSnapshot}
    (h : repository.addSnapshot zoned = some repository') :
    repository'.getSnapshot zoned.snapshot.id = .ok (some zoned.reread) := by
  obtain ⟨-, rfl⟩ := Table.insert_eq_some_iff.mp h
  have hget : (repository.put (fromSnapshot zoned)).get? zoned.snapshot.id =
      some (fromSnapshot zoned) := by
    rw [Table.get?_put]
    exact if_pos rfl
  simp only [ScopeRepository.getSnapshot, hget, toSnapshot_fromSnapshot]
  rfl

/-- A snapshot comes back equal when it has no cloud account and its time is in UTC. -/
theorem reread_eq_iff (zoned : ZonedSnapshot) :
    zoned.reread.snapshot = zoned.snapshot ↔
      zoned.snapshot.cloudAccounts = [] ∧ zoned.approvedAt.offset = 0 := by
  have htime : zoned.approvedAt.wall = zoned.snapshot.approvedAt ↔ zoned.approvedAt.offset = 0 := by
    rw [← zoned.approvedAt_instant, ZonedTime.wall_eq_instant_iff]
  rw [← htime]
  obtain ⟨⟨id, projectId, includeRules, excludeRules, ports, limits, approvedBy, approvedAt, digest,
    cloudAccounts⟩, zonedAt, hinstant⟩ := zoned
  simp only [ZonedSnapshot.reread, ScopeSnapshot.inUtc, ScopeSnapshot.mk.injEq, true_and]
  exact ⟨fun h => ⟨h.2.symm, h.1⟩, fun h => ⟨h.2, h.1.symm⟩⟩

/-! ## Queries -/

/-- Two snapshots answer every query alike. -/
structure SameAnswers (U : Unicode) (scope scope' : ScopeSnapshot) : Prop where
  ip : ∀ value, scope.includesIp U value = scope'.includesIp U value
  domain : ∀ value, scope.includesDomain U value = scope'.includesDomain U value
  url : ∀ value, scope.includesUrl U value = scope'.includesUrl U value
  host : ∀ value, scope.includesHost U value = scope'.includesHost U value
  excludedHost : ∀ value, scope.excludesHost U value = scope'.excludesHost U value
  port : ∀ value, scope.includesPort value = scope'.includesPort value
  cloudAccount : ∀ value, scope.includesCloudAccount U value = scope'.includesCloudAccount U value

theorem SameAnswers.refl (U : Unicode) (scope : ScopeSnapshot) : SameAnswers U scope scope :=
  ⟨fun _ => rfl, fun _ => rfl, fun _ => rfl, fun _ => rfl, fun _ => rfl, fun _ => rfl, fun _ => rfl⟩

/-- A frozen snapshot has cloud accounts when its draft names some. -/
theorem cloudAccounts_of_freeze {U : Unicode} {draft : ScopeDraft} {snapshotId approvedBy : String}
    {now : Time} {digest : String} {scope : ScopeSnapshot}
    (h : draft.freeze U snapshotId approvedBy now digest = .ok scope) :
    scope.cloudAccounts = [] ↔ draft.cloudAccounts = [] := by
  have hmem : ∀ account, account ∈ scope.cloudAccounts ↔
      ∃ listed ∈ draft.cloudAccounts, normalizeCloudAccount U listed = .ok account :=
    fun _ => mem_cloudAccounts_of_freeze h
  rw [List.eq_nil_iff_forall_not_mem, List.eq_nil_iff_forall_not_mem]
  constructor
  · -- Every account that is named was normalised, or the draft would not have frozen.
    intro hnone listed hlisted
    obtain ⟨includes, -, h⟩ := bind_eq_ok_iff.mp h
    obtain ⟨excludes, -, h⟩ := bind_eq_ok_iff.mp h
    obtain ⟨numbers, -, h⟩ := bind_eq_ok_iff.mp h
    obtain ⟨accounts, haccounts, -⟩ := bind_eq_ok_iff.mp h
    obtain ⟨account, hnormal⟩ := exists_of_mapM_eq_ok haccounts _ hlisted
    exact hnone account ((hmem account).mpr ⟨listed, hlisted, hnormal⟩)
  · intro hnone account haccount
    obtain ⟨listed, hlisted, -⟩ := (hmem account).mp haccount
    exact hnone listed hlisted

/-- **A frozen snapshot comes back equal from the repository**, and answers as before, exactly if its
draft names no cloud account. -/
theorem frozen_snapshot_kept_iff {U : Unicode} {draft : ScopeDraft} {snapshotId approvedBy : String}
    {now : Time} {digest : String} {scope : ScopeSnapshot} {repository repository' : ScopeRepository}
    (hfreeze : draft.freeze U snapshotId approvedBy now digest = .ok scope)
    (hadd : repository.addSnapshot scope.inUtc = some repository') :
    (∃ stored, repository'.getSnapshot scope.id = .ok (some stored) ∧ stored.snapshot = scope ∧
      SameAnswers U stored.snapshot scope) ↔ draft.cloudAccounts = [] := by
  have hget := getSnapshot_addSnapshot hadd
  rw [← cloudAccounts_of_freeze hfreeze]
  have hsame := reread_eq_iff scope.inUtc
  constructor
  · -- The answers are not needed: equal snapshots have the same accounts.
    rintro ⟨stored, hstored, hequal, -⟩
    have hread : scope.inUtc.reread = stored := by
      have := hget.symm.trans hstored
      simpa using this
    rw [← hread] at hequal
    exact (hsame.mp hequal).1
  · intro hnone
    have hequal : scope.inUtc.reread.snapshot = scope := hsame.mpr ⟨hnone, rfl⟩
    refine ⟨_, hget, hequal, ?_⟩
    rw [hequal]
    exact SameAnswers.refl U scope

/-- A draft of one domain and some cloud accounts, with no exclusion. -/
def cloudDraft (accounts : List Str) : ScopeDraft :=
  { accountDraft [] with excludeRules := [], cloudAccounts := accounts }

/-- The scope that the draft freezes to. -/
def cloudScope (accounts : List Str) : ScopeSnapshot :=
  { accountScope [] [] with excludeRules := [], cloudAccounts := accounts }

/-- A snapshot without cloud accounts is kept. -/
theorem frozen_snapshot_kept_without_accounts :
    ∃ repository', ScopeRepository.empty.addSnapshot (cloudScope []).inUtc = some repository' ∧
      ∃ stored, repository'.getSnapshot "scope" = .ok (some stored) ∧ stored.snapshot = cloudScope [] ∧
        SameAnswers .ascii stored.snapshot (cloudScope []) := by
  have hfreeze : (cloudDraft []).freeze .ascii "scope" "operator" 0 "digest" =
      .ok (cloudScope []) := by decide +kernel
  have hadd : ScopeRepository.empty.addSnapshot (cloudScope []).inUtc =
      some (ScopeRepository.empty.put (fromSnapshot (cloudScope []).inUtc)) := rfl
  exact ⟨_, hadd, (frozen_snapshot_kept_iff hfreeze hadd).mpr rfl⟩

/-- An account that was in scope is out of scope after the snapshot was stored. -/
theorem cloud_account_lost :
    (cloudDraft ["aws:123456789012".toList]).freeze .ascii "scope" "operator" 0 "digest" =
        .ok (cloudScope ["aws:123456789012".toList]) ∧
      (cloudScope ["aws:123456789012".toList]).includesCloudAccount .ascii
        "aws:123456789012".toList = .ok true ∧
      ∃ (repository' : ScopeRepository) (stored : ZonedSnapshot),
        ScopeRepository.empty.addSnapshot (cloudScope ["aws:123456789012".toList]).inUtc =
            some repository' ∧
          repository'.getSnapshot "scope" = .ok (some stored) ∧
          stored.snapshot ≠ cloudScope ["aws:123456789012".toList] ∧
          stored.snapshot.includesCloudAccount .ascii "aws:123456789012".toList = .ok false := by
  have hadd : ScopeRepository.empty.addSnapshot (cloudScope ["aws:123456789012".toList]).inUtc =
      some (ScopeRepository.empty.put
        (fromSnapshot (cloudScope ["aws:123456789012".toList]).inUtc)) := rfl
  refine ⟨by decide +kernel, by decide +kernel, _, _, hadd, getSnapshot_addSnapshot hadd, ?_, ?_⟩
  · decide +kernel
  · decide +kernel

end SecOpent
