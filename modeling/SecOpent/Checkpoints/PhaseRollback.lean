import SecOpent.Checkpoints.WorkspaceSnapshots

/-!
# Rolling back a phase

`application/checkpoint.py`: a phase of a job runs on a workspace of which a snapshot was made, and when
it raises the snapshot is restored. The snapshot leaves the version control and cache directories at the
top of the workspace out, and restoring it removes them.

## Main definitions

* `PhaseAction`: what the action of a phase leaves of the workspace, and what it raises
* `runPhase`
* `RollsBack`, `Rollbackable`: the phase is rolled back, and when it is

## Main results

* `restore_create_iff`: when a snapshot is restored as the workspace was
* `rollsBack_iff`: when a phase that raises is rolled back
* `checkpoint_exact_iff`: when phases are rolled back, and snapshots are found again
-/

namespace SecOpent

namespace Checkpoints

open Python Tarfile

/-- What an action raises: an `Exception`, or another `BaseException`. -/
inductive Raised
  | exception (error : String)
  | baseException (error : String)

/-- What an action leaves in the place of the workspace, with the symbolic links that then lead to
directories, and what it raises. -/
structure PhaseAction where
  after : Workdir
  isDir : Str → Bool
  raises : Option Raised

/-- What `run_phase` raises. -/
inductive PhaseError
  | phaseFailed (message : Str) (cause : String)
  | store (fault : StoreFault)
  | raised (error : String)

/-- `PhaseResult`. -/
structure PhaseResult where
  snapshotId : Str
  rolledBack : Bool

/-- What `run_phase` leaves of the store and the workspace, and what it returns. -/
structure PhaseOutcome where
  store : WorkspaceSnapshotStore
  workdir : Workdir
  result : Except PhaseError PhaseResult

/-- The text of a `PhaseFailedError`. -/
def failedText (jobId phase id : Str) : Str :=
  "phase '".toList ++ phase ++ "' of job '".toList ++ jobId ++
    "' failed; workspace rolled back to snapshot ".toList ++ id

/-- `run_phase`, on the entries of the workspace. -/
def runPhase (host : Host) (store : WorkspaceSnapshotStore) (jobId phase : Str) (token : Token)
    (entries : List (Str × Entry)) (action : PhaseAction) : PhaseOutcome :=
  match create host store jobId phase token entries with
  | .error fault => ⟨store, .directory entries, .error (.store fault)⟩
  | .ok (id, store) =>
    match action.raises with
    | none => ⟨store, action.after, .ok ⟨id, false⟩⟩
    | some (.baseException error) => ⟨store, action.after, .error (.raised error)⟩
    | some (.exception error) =>
      match restore host action.isDir store id action.after with
      | (workdir, some fault) => ⟨store, workdir, .error (.store fault)⟩
      | (workdir, none) =>
        ⟨store, workdir, .error (.phaseFailed (failedText jobId phase id) error)⟩

/-- The phase ends with a `PhaseFailedError`, and the workspace has the entries again. -/
def RollsBack (outcome : PhaseOutcome) (entries : List (Str × Entry)) : Prop :=
  (∃ message cause, outcome.result = .error (.phaseFailed message cause)) ∧
    outcome.workdir = .directory entries

/-- The phase can be rolled back: an archive can be opened under the name of its snapshot; no entry at
the top of the workspace is excluded, and below it are only files, and symbolic links that the filter
leaves as they are; what is raised is an `Exception`; and the action leaves no file in the place of the
workspace, and no symbolic link to a directory at its top. -/
structure Rollbackable (host : Host) (id : Str) (entries : List (Str × Entry)) (action : PhaseAction) :
    Prop where
  opens : host.opens (archiveName id) = true
  included : ∀ child ∈ entries, child.1 ∉ excludedDirs
  kept : ∀ leaf ∈ leavesAll [] entries, Keeps host.linkFilter leaf
  exception : ∃ error, action.raises = some (.exception error)
  emptied : ∃ left, action.after.made = .ok left ∧
    ∀ child ∈ left, removeRaises action.isDir child.2 = false

section Spec

variable {host : Host} {store : WorkspaceSnapshotStore} {jobId phase : Str} {token : Token}
  {entries : List (Str × Entry)} {action : PhaseAction} {isDir : Str → Bool} {id : Str}
  {workdir : Workdir}

/-- A workspace is emptied exactly if nothing in it raises. -/
theorem removeAll_eq_none_iff :
    (removeAll isDir entries).2 = none ↔
      ∀ child ∈ entries, removeRaises isDir child.2 = false := by
  induction entries with
  | nil => simp [removeAll]
  | cons first rest ih =>
    obtain ⟨name, entry⟩ := first
    rw [removeAll, List.forall_mem_cons]
    cases hraises : removeRaises isDir entry with
    | true => simp
    | false => simpa using ih

/-- **What an archive of a workspace gives back** is the workspace exactly if nothing at its top is
excluded, and everything is extracted as it was. -/
theorem extracted_eq_iff {filter : LinkFilter} :
    extractAll filter [] (addAll (entries.filter fun child => !excludedDirs.contains child.1)) =
        (entries, none) ↔
      (∀ child ∈ entries, child.1 ∉ excludedDirs) ∧
        ∀ leaf ∈ leavesAll [] entries, Keeps filter leaf := by
  have hall : (∀ child ∈ entries, child.1 ∉ excludedDirs) ↔
      ∀ child ∈ entries, (!excludedDirs.contains child.1) = true := by simp
  by_cases hincluded : ∀ child ∈ entries, child.1 ∉ excludedDirs
  · rw [List.filter_eq_self.mpr (hall.mp hincluded), extractAll_addAll_iff, and_iff_right hincluded]
  · refine iff_of_false (fun h => hincluded (hall.mpr ?_)) fun h => hincluded h.1
    -- What is left out is missing in the end.
    have hlength := congrArg (fun extracted => extracted.1.length) h
    have hle : (extractAll filter [] (addAll
        (entries.filter fun child => !excludedDirs.contains child.1))).1.length ≤
        (entries.filter fun child => !excludedDirs.contains child.1).length :=
      (length_extractAll_le _ _).trans (length_addAll_le _)
    rw [← List.length_filter_eq_length_iff]
    exact le_antisymm (List.length_filter_le _ _) (hlength.symm.le.trans hle)

/-- **When a snapshot is restored** as the workspace was. -/
theorem restore_create_iff {members : List (Str × Member)}
    (hmembers : store.get? (archiveName id) = some members) :
    restore host isDir store id workdir = (.directory entries, none) ↔
      (∃ left, workdir.made = .ok left ∧ ∀ child ∈ left, removeRaises isDir child.2 = false) ∧
        extractAll host.linkFilter [] members = (entries, none) := by
  rw [restore, hmembers]
  dsimp only
  cases hmade : workdir.made with
  | error fault => simp
  | ok left =>
    simp only [Except.ok.injEq, exists_eq_left', ← removeAll_eq_none_iff]
    rcases removeAll isDir left with ⟨remaining, fault⟩
    cases fault with
    | some fault => simp
    | none =>
      rcases extractAll host.linkFilter [] members with ⟨written, error⟩
      simp [Prod.ext_iff]

/-- **When a phase is rolled back.** -/
theorem rollsBack_iff (hraises : action.raises.isSome = true) :
    RollsBack (runPhase host store jobId phase token entries action) entries ↔
      Rollbackable host (snapId jobId phase token) entries action := by
  have hcases : Rollbackable host (snapId jobId phase token) entries action ↔
      host.opens (archiveName (snapId jobId phase token)) = true ∧
        (∃ error, action.raises = some (.exception error)) ∧
        (∃ left, action.after.made = .ok left ∧
          ∀ child ∈ left, removeRaises action.isDir child.2 = false) ∧
        (∀ child ∈ entries, child.1 ∉ excludedDirs) ∧
          ∀ leaf ∈ leavesAll [] entries, Keeps host.linkFilter leaf :=
    ⟨fun h => ⟨h.opens, h.exception, h.emptied, h.included, h.kept⟩,
      fun h => ⟨h.1, h.2.2.2.1, h.2.2.2.2, h.2.1, h.2.2.1⟩⟩
  rw [hcases, runPhase, create]
  cases hopens : host.opens (archiveName (snapId jobId phase token)) with
  | false => simp [RollsBack]
  | true =>
    obtain ⟨raised, hraised⟩ := Option.isSome_iff_exists.mp hraises
    simp only [if_true, hraised, true_and]
    cases raised with
    | baseException error => simp [RollsBack]
    | exception error =>
      have hget : ∀ members, (store.set (archiveName (snapId jobId phase token)) members).get?
          (archiveName (snapId jobId phase token)) = some members := fun members => by simp
      rw [← extracted_eq_iff]
      generalize addAll (entries.filter fun child => !excludedDirs.contains child.1) = members
      simp only [Option.some.injEq, Raised.exception.injEq, exists_eq', true_and,
        ← restore_create_iff (hget members)]
      rcases restore host action.isDir (store.set (archiveName (snapId jobId phase token)) members)
        (snapId jobId phase token) action.after with ⟨workdir, fault⟩
      cases fault with
      | some fault => simp [RollsBack]
      | none => simp [RollsBack]

end Spec

/-- **Phases are rolled back, and snapshots are found again**: a phase that raises is rolled back
exactly if it can be, and the snapshots of a job are listed exactly if no id that was created starts
with the text of the job. -/
theorem checkpoint_exact_iff (host : Host) :
    (∀ store jobId phase token entries action, action.raises.isSome = true →
      (RollsBack (runPhase host store jobId phase token entries action) entries ↔
        Rollbackable host (snapId jobId phase token) entries action)) ∧
    ∀ creations jobId, ListingExact host creations jobId ↔
      ∀ c ∈ creations, c.succeeds host = true → startsWith c.id (jobText jobId) = false :=
  ⟨fun _ _ _ _ _ _ => rollsBack_iff, fun _ _ => listing_exact_iff⟩

/-! ### A repository in a workspace -/

/-- Any name fits, and links are left as they are. -/
def plainHost : Host := ⟨fun _ => true, fun _ target => some target⟩

/-- A token. -/
def zeroToken : Token where
  text := List.replicate 8 '0'
  length := rfl
  hex c hc := by
    rw [List.eq_of_mem_replicate hc]
    rfl

/-- A workspace with a repository and a file. -/
def repositoryEntries : List (Str × Entry) :=
  [(".git".toList, .dir [("HEAD".toList, .file [114])]), ("keep.txt".toList, .file [107])]

/-- An action that raises and changes nothing. -/
def failingAction : PhaseAction :=
  ⟨.directory repositoryEntries, fun _ => false, some (.exception "ValueError")⟩

/-- The phase raises `PhaseFailedError`, and the repository is gone; the one snapshot of a job is listed
under an id that `restore` does not find. -/
theorem repository_lost_and_snapshot_missing :
    (runPhase plainHost .empty "job-1".toList "recon".toList zeroToken repositoryEntries
        failingAction).workdir = .directory [("keep.txt".toList, .file [107])] ∧
      ¬RollsBack (runPhase plainHost .empty "job-1".toList "recon".toList zeroToken repositoryEntries
        failingAction) repositoryEntries ∧
      ¬ListingExact plainHost [⟨"job-1".toList, "recon".toList, zeroToken, repositoryEntries⟩]
        "job-1".toList := by
  have hlost : (runPhase plainHost .empty "job-1".toList "recon".toList zeroToken repositoryEntries
      failingAction).workdir = .directory [("keep.txt".toList, .file [107])] := by
    rfl
  refine ⟨hlost, fun h => ?_, fun h => ?_⟩
  · have hkept := h.2
    rw [hlost, Workdir.directory.injEq] at hkept
    exact absurd (congrArg List.length hkept) (by decide)
  · have hstarts := listing_exact_iff.mp h _ (List.mem_singleton.mpr rfl) (by decide)
    rw [startsWith_id] at hstarts
    cases hstarts

end Checkpoints

end SecOpent
