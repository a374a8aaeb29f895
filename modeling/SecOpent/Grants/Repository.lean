import Mathlib.Data.String.Basic
import SecOpent.Grants.Models
import SecOpent.Python.OrderedRows
import SecOpent.Scope.Repository

/-!
# The grant repository

`SqlAlchemyGrantRepository` of `infrastructure/repositories/sqlalchemy_grants.py`: a grant is written to
a row of its own, and its scope to the table of all scope snapshots, unless that table has a snapshot
with the same id. The time columns have no time zone. What is read is built from both rows.

## Main definitions

* `ZonedGrant`: a grant with the time zones of its datetimes
* `GrantDatabase.add`, `GrantDatabase.get`
* `ZonedGrant.WindowKept`, `BoundaryKept`: what the rows keep of the window and of the scope
* `SameAuthority`: two grants are active at the same instants and cover the same scopes

## Main results

* `sameWindow_iff`: the windows that are active at the same instants
* `sameCover_iff`: the scopes that cover the same assessments
* `authority_kept_iff`: when a grant that is read back gives the same answers
-/

namespace SecOpent

open Python

/-! ## Rows -/

/-- `GrantStatus.value`. -/
def GrantStatus.value : GrantStatus → String
  | .active => "active"
  | .revoked => "revoked"
  | .expired => "expired"

/-- `GrantStatus(value)`, which raises on any other text. -/
def GrantStatus.ofValue? (text : String) : Option GrantStatus :=
  [.active, .revoked, .expired].find? fun status => status.value == text

theorem GrantStatus.ofValue?_value (status : GrantStatus) :
    GrantStatus.ofValue? status.value = some status := by
  cases status <;> decide

/-- `EngagementGrant` with the time zones of its datetimes, which are compared by their instants. -/
structure ZonedGrant where
  grant : EngagementGrant
  scope : ZonedSnapshot
  validFrom : ZonedTime
  validTo : ZonedTime
  createdAt : ZonedTime
  scope_snapshot : scope.snapshot = grant.scope
  validFrom_instant : validFrom.instant = grant.validFrom
  validTo_instant : validTo.instant = grant.validTo
  createdAt_instant : createdAt.instant = grant.createdAt

/-- `CoreEngagementGrant`; SQLite keeps the wall clocks, and `risk_caps` is a JSON list of texts. -/
structure CoreEngagementGrant where
  id : String
  projectId : String
  name : Str
  scopeSnapshotId : String
  riskCaps : List String
  validFrom : ℤ
  validTo : ℤ
  createdBy : String
  createdAt : ℤ
  status : String
  digest : String

/-- The row of a grant. -/
def CoreEngagementGrant.fromGrant (zoned : ZonedGrant) : CoreEngagementGrant where
  id := zoned.grant.id
  projectId := zoned.grant.projectId
  name := zoned.grant.name
  scopeSnapshotId := zoned.grant.scope.id
  riskCaps := sorted (zoned.grant.riskCaps.image RiskClass.value)
  validFrom := zoned.validFrom.wall
  validTo := zoned.validTo.wall
  createdBy := zoned.grant.createdBy
  createdAt := zoned.createdAt.wall
  status := zoned.grant.status.value
  digest := zoned.grant.digest

/-- `_from_row`. -/
def CoreEngagementGrant.toGrant (row : CoreEngagementGrant) (scope : ZonedSnapshot) :
    Except PyError ZonedGrant := do
  let riskCaps ← orValueError (row.riskCaps.mapM RiskClass.ofValue?)
  let status ← orValueError (GrantStatus.ofValue? row.status)
  pure
    { grant :=
        { id := row.id
          projectId := row.projectId
          name := row.name
          scope := scope.snapshot
          riskCaps := riskCaps.toFinset
          validFrom := row.validFrom
          validTo := row.validTo
          createdBy := row.createdBy
          createdAt := row.createdAt
          status := status
          digest := row.digest }
      scope := scope
      validFrom := .utc row.validFrom
      validTo := .utc row.validTo
      createdAt := .utc row.createdAt
      scope_snapshot := rfl
      validFrom_instant := ZonedTime.instant_utc _
      validTo_instant := ZonedTime.instant_utc _
      createdAt_instant := ZonedTime.instant_utc _ }

/-! ## The repository -/

/-- The tables `core_scope_snapshots` and `core_grants`. -/
structure GrantDatabase where
  scopes : ScopeRepository
  grants : Table CoreEngagementGrant CoreEngagementGrant.id

namespace GrantDatabase

/-- A database without rows. -/
def empty : GrantDatabase := ⟨.empty, .empty⟩

/-- `add`: a snapshot that is there is left as it is. -/
def add (database : GrantDatabase) (zoned : ZonedGrant) : GrantDatabase where
  scopes :=
    match database.scopes.get? zoned.grant.scope.id with
    | none => (database.scopes.addSnapshot zoned.scope).getD database.scopes
    | some _ => database.scopes
  grants := database.grants.put (.fromGrant zoned)

/-- `get`. -/
def get (database : GrantDatabase) (grantId : String) : Except PyError (Option ZonedGrant) :=
  match database.grants.get? grantId with
  | none => pure none
  | some row => do
    match ← database.scopes.getSnapshot row.scopeSnapshotId with
    | none => pure none
    | some scope => do
      let zoned ← row.toGrant scope
      pure (some zoned)

end GrantDatabase

/-! ## What comes back -/

/-- The risk caps come back as they were. -/
theorem mapM_ofValue?_value (risks : Finset RiskClass) :
    ∃ read, (sorted (risks.image RiskClass.value)).mapM RiskClass.ofValue? = some read ∧
      read.toFinset = risks := by
  have hread : ∀ texts : List String, (∀ text ∈ texts, ∃ risk ∈ risks, risk.value = text) →
      ∃ read, texts.mapM RiskClass.ofValue? = some read ∧ read.map RiskClass.value = texts := by
    intro texts htexts
    induction texts with
    | nil => exact ⟨[], rfl, rfl⟩
    | cons text texts ih =>
      obtain ⟨⟨risk, -, rfl⟩, hrest⟩ := List.forall_mem_cons.mp htexts
      obtain ⟨read, hmap, hvalues⟩ := ih hrest
      exact ⟨risk :: read, by simp [hmap, RiskClass.ofValue?_value], by rw [List.map_cons, hvalues]⟩
  obtain ⟨read, hmap, hvalues⟩ := hread (sorted (risks.image RiskClass.value)) fun text htext =>
    Finset.mem_image.mp (mem_sorted.mp htext)
  refine ⟨read, hmap, ?_⟩
  ext risk
  -- A value tells its risk, so what is read has the same members.
  have hvalue : risk.value ∈ read.map RiskClass.value ↔ risk.value ∈ risks.image RiskClass.value := by
    rw [hvalues, mem_sorted]
  have hinj : Function.Injective RiskClass.value := fun _ _ => RiskClass.value_inj.mp
  rwa [List.mem_map_of_injective hinj, hinj.mem_finset_image, ← List.mem_toFinset] at hvalue

/-- What comes back of a grant with this scope: the wall clocks are read as UTC. -/
def ZonedGrant.rereadWith (zoned : ZonedGrant) (scope : ZonedSnapshot) : ZonedGrant where
  grant :=
    { zoned.grant with
      scope := scope.snapshot
      validFrom := zoned.validFrom.wall
      validTo := zoned.validTo.wall
      createdAt := zoned.createdAt.wall }
  scope := scope
  validFrom := zoned.validFrom.reread
  validTo := zoned.validTo.reread
  createdAt := zoned.createdAt.reread
  scope_snapshot := rfl
  validFrom_instant := ZonedTime.instant_utc _
  validTo_instant := ZonedTime.instant_utc _
  createdAt_instant := ZonedTime.instant_utc _

theorem toGrant_fromGrant (zoned : ZonedGrant) (scope : ZonedSnapshot) :
    (CoreEngagementGrant.fromGrant zoned).toGrant scope = .ok (zoned.rereadWith scope) := by
  obtain ⟨read, hmap, hread⟩ := mapM_ofValue?_value zoned.grant.riskCaps
  have hcaps : orValueError ((CoreEngagementGrant.fromGrant zoned).riskCaps.mapM
      RiskClass.ofValue?) = .ok read := by
    rw [show (CoreEngagementGrant.fromGrant zoned).riskCaps.mapM RiskClass.ofValue? = some read
      from hmap]
    rfl
  have hstatus : orValueError (GrantStatus.ofValue? (CoreEngagementGrant.fromGrant zoned).status) =
      .ok zoned.grant.status := by
    rw [show GrantStatus.ofValue? (CoreEngagementGrant.fromGrant zoned).status =
      some zoned.grant.status from GrantStatus.ofValue?_value _]
    rfl
  unfold CoreEngagementGrant.toGrant
  rw [hcaps, hstatus]
  simp only [bind, Except.bind, pure, Except.pure, ZonedGrant.rereadWith, hread]
  rfl

/-- The scope that is read for a grant that was added: the one that the table had under its id, or the
grant's own. -/
def GrantDatabase.scopeRead (database : GrantDatabase) (zoned : ZonedGrant) :
    Except PyError ZonedSnapshot :=
  match database.scopes.get? zoned.grant.scope.id with
  | none => .ok zoned.scope.reread
  | some row => toSnapshot row

theorem getSnapshot_add (database : GrantDatabase) (zoned : ZonedGrant) :
    (database.add zoned).scopes.getSnapshot zoned.grant.scope.id =
      (database.scopeRead zoned).map some := by
  have hid : zoned.scope.snapshot.id = zoned.grant.scope.id := by rw [zoned.scope_snapshot]
  unfold GrantDatabase.scopeRead
  cases hrow : database.scopes.get? zoned.grant.scope.id with
  | none =>
    -- The id is free, so the grant's own snapshot is added.
    have hfree : database.scopes.get? (fromSnapshot zoned.scope).id = none := by
      rw [show (fromSnapshot zoned.scope).id = zoned.grant.scope.id from hid, hrow]
    have hadd : database.scopes.addSnapshot zoned.scope =
        some (database.scopes.put (fromSnapshot zoned.scope)) :=
      Table.insert_eq_some_iff.mpr ⟨hfree, rfl⟩
    simp only [GrantDatabase.add, hrow, hadd, Option.getD_some]
    rw [← hid]
    exact getSnapshot_addSnapshot hadd
  | some row =>
    -- The snapshot that is there stays, whatever scope the grant has.
    simp only [GrantDatabase.add, hrow, ScopeRepository.getSnapshot]
    cases toSnapshot row <;> rfl

/-- **What is read of a grant that was added.** -/
theorem get_add (database : GrantDatabase) (zoned : ZonedGrant) :
    (database.add zoned).get zoned.grant.id =
      (database.scopeRead zoned).map fun scope => some (zoned.rereadWith scope) := by
  have hgrant : (database.add zoned).grants.get? zoned.grant.id = some (.fromGrant zoned) := by
    rw [GrantDatabase.add, Table.get?_put]
    exact if_pos rfl
  have hscope : (database.add zoned).scopes.getSnapshot
      (CoreEngagementGrant.fromGrant zoned).scopeSnapshotId = (database.scopeRead zoned).map some :=
    getSnapshot_add database zoned
  simp only [GrantDatabase.get, hgrant, hscope]
  cases database.scopeRead zoned with
  | error e => rfl
  | ok scope =>
    show (CoreEngagementGrant.toGrant _ _ >>= _) = _
    rw [toGrant_fromGrant]
    rfl

/-! ## The window -/

/-- The window of a grant is empty. -/
def EngagementGrant.EmptyWindow (grant : EngagementGrant) : Prop := grant.validTo < grant.validFrom

/-- Two windows have the same instants when their bounds are the same, or both are empty. -/
theorem sameInstants_iff {a b a' b' : ℤ} :
    (∀ t, (a ≤ t ∧ t ≤ b) ↔ (a' ≤ t ∧ t ≤ b')) ↔ (a = a' ∧ b = b') ∨ (b < a ∧ b' < a') := by
  constructor
  · intro hsame
    -- The bounds of a window that is not empty lie in it, so four instants tell both windows.
    have hfrom := hsame a
    have hto := hsame b
    have hfrom' := hsame a'
    have hto' := hsame b'
    omega
  · rintro (⟨rfl, rfl⟩ | ⟨hempty, hempty'⟩) t
    · rfl
    · omega

/-- The windows that are active at the same instants. -/
theorem sameWindow_iff {grant grant' : EngagementGrant} (hstatus : grant.status = grant'.status) :
    (∀ t, grant.isActiveAt t = grant'.isActiveAt t) ↔
      grant'.status = .revoked ∨
        (grant.validFrom = grant'.validFrom ∧ grant.validTo = grant'.validTo) ∨
        (grant.EmptyWindow ∧ grant'.EmptyWindow) := by
  have hiff : (∀ t, grant.isActiveAt t = grant'.isActiveAt t) ↔ grant'.status = .revoked ∨
      ∀ t, (grant.validFrom ≤ t ∧ t ≤ grant.validTo) ↔ (grant'.validFrom ≤ t ∧ t ≤ grant'.validTo) := by
    simp only [EngagementGrant.isActiveAt, hstatus]
    by_cases hrevoked : grant'.status = .revoked
    · simp [hrevoked]
    · have hlive : (grant'.status != .revoked) = true := bne_iff_ne.mpr hrevoked
      simp only [hlive, Bool.true_and, decide_eq_decide, hrevoked, false_or]
  rw [hiff]
  exact or_congr_right sameInstants_iff

/-- The wall clocks keep the window of a grant: it is revoked, or its bounds are in UTC, or its window
is empty and stays so. -/
def ZonedGrant.WindowKept (zoned : ZonedGrant) : Prop :=
  zoned.grant.status = .revoked ∨ (zoned.validFrom.offset = 0 ∧ zoned.validTo.offset = 0) ∨
    (zoned.validTo.instant < zoned.validFrom.instant ∧ zoned.validTo.wall < zoned.validFrom.wall)

theorem windowKept_iff {zoned : ZonedGrant} {scope : ZonedSnapshot} :
    (∀ t, (zoned.rereadWith scope).grant.isActiveAt t = zoned.grant.isActiveAt t) ↔
      zoned.WindowKept := by
  have hstatus : (zoned.rereadWith scope).grant.status = zoned.grant.status := rfl
  rw [sameWindow_iff hstatus]
  show _ ∨ (zoned.validFrom.wall = zoned.grant.validFrom ∧ zoned.validTo.wall = zoned.grant.validTo) ∨
    (zoned.validTo.wall < zoned.validFrom.wall ∧ zoned.grant.validTo < zoned.grant.validFrom) ↔ _
  rw [← zoned.validFrom_instant, ← zoned.validTo_instant, ZonedTime.wall_eq_instant_iff,
    ZonedTime.wall_eq_instant_iff, ZonedGrant.WindowKept,
    and_comm (a := zoned.validTo.wall < zoned.validFrom.wall)]

/-! ## The scope -/

/-- Two scopes draw the same boundary: they have the same ports, and each target is inside both or
outside both. -/
structure SameBoundary (U : Unicode) (grant grant' : EngagementGrant) : Prop where
  ports : ∀ p, p ∈ grant.scope.ports ↔ p ∈ grant'.scope.ports
  target : ∀ target, grant.matchesBoundary U target = grant'.matchesBoundary U target

theorem matchesBoundary_of_allMatch {U : Unicode} (grant : EngagementGrant) (target : Str) :
    grant.allMatchBoundary U [target] = grant.matchesBoundary U target := by
  rw [EngagementGrant.allMatchBoundary]
  rcases grant.matchesBoundary U target with e | _ | _ <;> rfl

/-- Two grants cover the same assessments when their scopes draw the same boundary. -/
theorem sameCover_iff {U : Unicode} {grant grant' : EngagementGrant} :
    (∀ scope, grant.coversScope U scope = grant'.coversScope U scope) ↔
      SameBoundary U grant grant' := by
  constructor
  · intro hsame
    constructor
    · -- An assessment of one port and no target.
      intro p
      have hport := hsame { grant.scope with ports := [p], includeRules := [] }
      by_cases hp : p ∈ grant.scope.ports <;> by_cases hp' : p ∈ grant'.scope.ports <;>
        simp_all [EngagementGrant.coversScope, EngagementGrant.allMatchBoundary, pure, Except.pure]
    · -- An assessment of one target and no port.
      intro target
      have htarget := hsame { grant.scope with ports := [], includeRules := [target] }
      simpa [EngagementGrant.coversScope, matchesBoundary_of_allMatch] using htarget
  · intro hboundary scope
    have hports : (∃ p ∈ scope.ports, p ∉ grant.scope.ports) ↔
        ∃ p ∈ scope.ports, p ∉ grant'.scope.ports := by simp only [hboundary.ports]
    have hall : ∀ targets, grant.allMatchBoundary U targets = grant'.allMatchBoundary U targets := by
      intro targets
      induction targets with
      | nil => rfl
      | cons target targets ih => simp only [EngagementGrant.allMatchBoundary, hboundary.target, ih]
    unfold EngagementGrant.coversScope
    by_cases houtside : ∃ p ∈ scope.ports, p ∉ grant.scope.ports
    · rw [if_pos houtside, if_pos (hports.mp houtside)]
    · rw [if_neg houtside, if_neg fun h => houtside (hports.mpr h), hall]

/-- The scope that is read for the grant draws the boundary of the grant: its snapshot is new, or the
snapshot that the table has under its id draws the same. -/
def BoundaryKept (U : Unicode) (database : GrantDatabase) (zoned : ZonedGrant) : Prop :=
  ∀ row, database.scopes.get? zoned.grant.scope.id = some row →
    ∃ scope, toSnapshot row = .ok scope ∧
      SameBoundary U { zoned.grant with scope := scope.snapshot } zoned.grant

/-- A boundary does not depend on cloud accounts, nor on the rest of the grant. -/
theorem matchesBoundary_congr {U : Unicode} {grant grant' : EngagementGrant}
    (hinclude : grant.scope.includeRules = grant'.scope.includeRules)
    (hexclude : grant.scope.excludeRules = grant'.scope.excludeRules) (target : Str) :
    grant.matchesBoundary U target = grant'.matchesBoundary U target := by
  have hby : ∀ matches', includesBy matches' grant.scope = includesBy matches' grant'.scope :=
    fun matches' => by unfold includesBy; rw [hinclude, hexclude]
  have hadmits : ∀ query, grant.scope.admits U query = grant'.scope.admits U query :=
    fun query => by simp only [admits_eq, hby]
  have hurl : grant.scope.includesUrl U target = grant'.scope.includesUrl U target :=
    hadmits (.url target)
  have hip : grant.scope.includesIp U target = grant'.scope.includesIp U target :=
    hadmits (.ip target)
  have hdomain : grant.scope.includesDomain U target = grant'.scope.includesDomain U target :=
    hadmits (.domain target)
  unfold EngagementGrant.matchesBoundary
  rw [hurl, hip, hdomain]

theorem sameBoundary_of_rules {U : Unicode} {grant grant' : EngagementGrant}
    (hports : grant.scope.ports = grant'.scope.ports)
    (hinclude : grant.scope.includeRules = grant'.scope.includeRules)
    (hexclude : grant.scope.excludeRules = grant'.scope.excludeRules) :
    SameBoundary U grant grant' :=
  ⟨fun _ => by rw [hports], matchesBoundary_congr hinclude hexclude⟩

/-- The boundary is kept when the scope that is read draws it. -/
theorem boundaryKept_iff {U : Unicode} {database : GrantDatabase} {zoned : ZonedGrant} :
    BoundaryKept U database zoned ↔
      ∃ scope, database.scopeRead zoned = .ok scope ∧
        SameBoundary U { zoned.grant with scope := scope.snapshot } zoned.grant := by
  unfold BoundaryKept GrantDatabase.scopeRead
  cases database.scopes.get? zoned.grant.scope.id with
  | none =>
    -- The row has no column for the cloud accounts, and the boundary does not ask for them.
    have hscope := zoned.scope_snapshot
    have hports : zoned.scope.reread.snapshot.ports = zoned.grant.scope.ports := by
      rw [← hscope]
      rfl
    have hinclude : zoned.scope.reread.snapshot.includeRules = zoned.grant.scope.includeRules := by
      rw [← hscope]
      rfl
    have hexclude : zoned.scope.reread.snapshot.excludeRules = zoned.grant.scope.excludeRules := by
      rw [← hscope]
      rfl
    constructor
    · exact fun _ => ⟨_, rfl, sameBoundary_of_rules hports hinclude hexclude⟩
    · rintro - row ⟨⟩
  | some row =>
    constructor
    · exact fun h => h row rfl
    · rintro h row' ⟨⟩
      exact h

/-! ## Authority -/

/-- Two grants give the same answers: they are active at the same instants and cover the same
scopes. -/
structure SameAuthority (U : Unicode) (grant grant' : EngagementGrant) : Prop where
  active : ∀ t, grant.isActiveAt t = grant'.isActiveAt t
  covers : ∀ scope, grant.coversScope U scope = grant'.coversScope U scope

/-- The authority of a grant that is read with some scope. -/
theorem sameAuthority_iff {U : Unicode} {zoned : ZonedGrant} {scope : ZonedSnapshot} :
    SameAuthority U (zoned.rereadWith scope).grant zoned.grant ↔
      zoned.WindowKept ∧ SameBoundary U { zoned.grant with scope := scope.snapshot } zoned.grant := by
  have htarget : ∀ target, (zoned.rereadWith scope).grant.matchesBoundary U target =
      { zoned.grant with scope := scope.snapshot }.matchesBoundary U target :=
    matchesBoundary_congr rfl rfl
  have hcover : (∀ assessed, (zoned.rereadWith scope).grant.coversScope U assessed =
      zoned.grant.coversScope U assessed) ↔
        SameBoundary U { zoned.grant with scope := scope.snapshot } zoned.grant := by
    rw [sameCover_iff]
    constructor
    · exact fun h => ⟨h.ports, fun target => (htarget target).symm.trans (h.target target)⟩
    · exact fun h => ⟨h.ports, fun target => (htarget target).trans (h.target target)⟩
  constructor
  · exact fun h => ⟨windowKept_iff.mp h.active, hcover.mp h.covers⟩
  · exact fun h => ⟨windowKept_iff.mpr h.1, hcover.mpr h.2⟩

/-- **When a grant that is read back gives the same answers**: it is revoked, or its bounds are in UTC,
or its window is empty before and after; and the snapshot under the id of its scope is new or draws the
same boundary. -/
theorem authority_kept_iff (U : Unicode) (database : GrantDatabase) (zoned : ZonedGrant) :
    (∃ stored, (database.add zoned).get zoned.grant.id = .ok (some stored) ∧
      SameAuthority U stored.grant zoned.grant) ↔
      zoned.WindowKept ∧ BoundaryKept U database zoned := by
  rw [boundaryKept_iff, get_add]
  constructor
  · -- What is read is the grant with the scope that is read.
    rintro ⟨stored, hstored, hsame⟩
    cases hread : database.scopeRead zoned with
    | error e =>
      rw [hread] at hstored
      cases hstored
    | ok scope =>
      rw [hread] at hstored
      have hgrant : zoned.rereadWith scope = stored := by simpa [Except.map] using hstored
      rw [← hgrant] at hsame
      exact ⟨(sameAuthority_iff.mp hsame).1, scope, rfl, (sameAuthority_iff.mp hsame).2⟩
  · rintro ⟨hwindow, scope, hread, hsame⟩
    refine ⟨zoned.rereadWith scope, ?_, sameAuthority_iff.mpr ⟨hwindow, hsame⟩⟩
    rw [hread]
    rfl

/-- A grant for an hour of the first day, at some offset from UTC. -/
def hourGrant (grantId : String) (scope : ScopeSnapshot) (offset : ℤ)
    (h : |offset| < 86400000000) : ZonedGrant where
  grant :=
    { id := grantId, projectId := "project", name := "engagement".toList, scope := scope,
      riskCaps := {.passive}, validFrom := 0, validTo := 3600000000, createdBy := "human",
      createdAt := 0, status := .active, digest := "digest" }
  scope := scope.inUtc
  validFrom := ⟨offset, offset, h⟩
  validTo := ⟨3600000000 + offset, offset, h⟩
  createdAt := .utc 0
  scope_snapshot := rfl
  validFrom_instant := sub_self offset
  validTo_instant := add_sub_cancel_right 3600000000 offset
  createdAt_instant := ZonedTime.instant_utc 0

/-- A scope of one name under the id of the command line. -/
def cliScope (name : String) : ScopeSnapshot :=
  { accountScope [] [] with
    id := "cli-scope-project", includeRules := [name.toList], excludeRules := [], cloudAccounts := [] }

/-- A grant of eight hours east of UTC is active eight hours late, and a second grant from the command
line covers what the first one did. -/
theorem authority_lost :
    (∃ stored, (GrantDatabase.empty.add
        (hourGrant "grant-a" (cliScope "a.example") 28800000000 (by decide))).get "grant-a" =
          .ok (some stored) ∧
      (hourGrant "grant-a" (cliScope "a.example") 28800000000 (by decide)).grant.isActiveAt 0 =
        true ∧
      stored.grant.isActiveAt 0 = false ∧ stored.grant.isActiveAt 28800000000 = true) ∧
    ∃ stored, ((GrantDatabase.empty.add
          (hourGrant "grant-a" (cliScope "a.example") 0 (by decide))).add
        (hourGrant "grant-b" (cliScope "b.example") 0 (by decide))).get "grant-b" =
          .ok (some stored) ∧
      (hourGrant "grant-b" (cliScope "b.example") 0 (by decide)).grant.coversScope .ascii
        (cliScope "b.example") = .ok true ∧
      stored.grant.coversScope .ascii (cliScope "b.example") = .ok false ∧
      stored.grant.coversScope .ascii (cliScope "a.example") = .ok true := by
  refine ⟨⟨_, get_add _ _, by decide +kernel, by decide +kernel, by decide +kernel⟩, ?_⟩
  exact ⟨_, get_add _ _, by decide +kernel, by decide +kernel, by decide +kernel⟩

end SecOpent
