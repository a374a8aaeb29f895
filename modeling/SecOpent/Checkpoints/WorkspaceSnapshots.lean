import SecOpent.Python.Dict
import SecOpent.Python.Tarfile
import SecOpent.Scope.Snapshot

/-!
# Snapshots of a workspace

`infrastructure/safety/workspace_snapshot.py`: a snapshot is an archive of a workspace without its
top-level version control and cache directories. To restore it, the workspace is emptied and the
archive extracted. The snapshots of a job are found by the names of the archives, and what is listed as
their ids are the names without `.gz`, so with `.tar` at the end.

## Main definitions

* `WorkspaceSnapshotStore`: the archives, by their names
* `create`, `restore`, `listForJob`

## Main results

* `exists_listed_iff`: what is listed for a job
* `listing_exact_iff`: when the listed ids of a job are those that were created for it
-/

namespace SecOpent

namespace Checkpoints

open Python Tarfile

/-! ## The store -/

/-- `uuid.uuid4().hex[:8]`. -/
structure Token where
  text : Str
  length : text.length = 8
  hex : ∀ c ∈ text, isHexDigit c = true

/-- What the host decides: the names that fit into a directory, and the symbolic links that the filter
`data` of `tarfile` lets through. -/
structure Host where
  fits : Str → Bool
  linkFilter : LinkFilter

/-- What `create` and `restore` raise. -/
inductive StoreFault
  | snapshotMissing (message : Str)
  | cannotOpen (name : Str)
  | notADirectory
  | rmtreeOfLink (name : Str)
  | extraction (error : TarError)
  deriving DecidableEq, Repr

/-- What is in the place of a workspace. -/
inductive Workdir
  | missing
  | directory (entries : List (Str × Entry))
  | noDirectory

/-- `_EXCLUDED_DIRS`. -/
def excludedDirs : List Str :=
  [".git".toList, ".hg".toList, ".svn".toList, "__pycache__".toList, ".shannon".toList]

/-- `snap-{job_id}-`. -/
def jobText (jobId : Str) : Str := "snap-".toList ++ jobId ++ ['-']

/-- The id of a snapshot. -/
def snapId (jobId phase : Str) (token : Token) : Str :=
  jobText jobId ++ (phase ++ '-' :: token.text)

/-- The name of an archive. -/
def archiveName (id : Str) : Str := id ++ ".tar.gz".toList

/-- `WorkspaceSnapshotStore`: the archives in its directory, by their names. -/
abbrev WorkspaceSnapshotStore := Dict Str (List (Str × Member))

/-- An archive can be opened under the name: the directory has no other directories in it. -/
def Host.opens (host : Host) (name : Str) : Bool :=
  !name.contains '/' && !name.contains '\x00' && host.fits name

/-- `create`, on the entries of the workspace in the order of their names. -/
def create (host : Host) (store : WorkspaceSnapshotStore) (jobId phase : Str) (token : Token)
    (entries : List (Str × Entry)) : Except StoreFault (Str × WorkspaceSnapshotStore) :=
  let id := snapId jobId phase token
  if host.opens (archiveName id) then
    let members := addAll (entries.filter fun child => !excludedDirs.contains child.1)
    .ok (id, store.set (archiveName id) members)
  else .error (.cannotOpen (archiveName id))

/-- `_remove` raises: `is_dir` follows a symbolic link, and `rmtree` refuses it. `isDir` tells for the
symbolic links whether they lead to a directory. -/
def removeRaises (isDir : Str → Bool) : Entry → Bool
  | .link target => isDir target
  | _ => false

/-- The loop over `_remove`, with the entries that are left. -/
def removeAll (isDir : Str → Bool) :
    List (Str × Entry) → List (Str × Entry) × Option StoreFault
  | [] => ([], none)
  | (name, entry) :: rest =>
    if removeRaises isDir entry then ((name, entry) :: rest, some (.rmtreeOfLink name))
    else removeAll isDir rest

/-- The entries after `workdir.mkdir(parents=True, exist_ok=True)`. -/
def Workdir.made : Workdir → Except StoreFault (List (Str × Entry))
  | .missing => .ok []
  | .directory entries => .ok entries
  | .noDirectory => .error .notADirectory

/-- `restore`: what it leaves of the workspace, and what it raises. -/
def restore (host : Host) (isDir : Str → Bool) (store : WorkspaceSnapshotStore) (id : Str)
    (workdir : Workdir) : Workdir × Option StoreFault :=
  match store.get? (archiveName id) with
  | none => (workdir, some (.snapshotMissing ("snapshot not found: ".toList ++ id)))
  | some members =>
    match workdir.made with
    | .error fault => (workdir, some fault)
    | .ok entries =>
      match removeAll isDir entries with
      | (left, some fault) => (.directory left, some fault)
      | (_, none) =>
        let (written, error) := extractAll host.linkFilter [] members
        (.directory written, error.map .extraction)

/-! ## Listing -/

/-- `SnapshotRef`, with the name of the archive for its path. -/
structure SnapshotRef where
  id : Str
  jobId : Str
  phase : Str
  path : Str

/-- The name matches `snap-*.tar.gz`. -/
def globbed (name : Str) : Bool :=
  startsWith name "snap-".toList && endsWith (name.drop 5) ".tar.gz".toList

/-- `Path.stem`, of a name with a dot that is neither its first nor its last character. -/
def stem (name : Str) : Str := (rpartition '.' name).1

/-- The reference to an archive, if it is listed for the job. -/
def listed (jobId name : Str) : Option SnapshotRef :=
  if startsWith (stem name) (jobText jobId) then
    let remainder := (stem name).drop (jobText jobId).length
    some
      { id := stem name
        jobId := jobId
        phase := if remainder.contains '-' then (rpartition '-' remainder).1 else remainder
        path := name }
  else none

/-- `list_for_job`. -/
def listForJob (store : WorkspaceSnapshotStore) (jobId : Str) : List SnapshotRef :=
  (((store.items.map Prod.fst).filter globbed).mergeSort ScopeDraft.strLe).filterMap (listed jobId)

/-! ## Sequences of snapshots -/

/-- The arguments of a `create`, with its token and the workspace. -/
structure Creation where
  jobId : Str
  phase : Str
  token : Token
  entries : List (Str × Entry)

/-- The id that the `create` returns. -/
def Creation.id (c : Creation) : Str := snapId c.jobId c.phase c.token

/-- The `create` returns. -/
def Creation.succeeds (host : Host) (c : Creation) : Bool := host.opens (archiveName c.id)

/-- The store after some calls of `create`, of which those that raise leave it as it is. -/
def createdStore (host : Host) (creations : List Creation) : WorkspaceSnapshotStore :=
  creations.foldl (fun store c =>
    match create host store c.jobId c.phase c.token c.entries with
    | .ok (_, store') => store'
    | .error _ => store) .empty

/-- `restore` finds the snapshot. -/
def Accepts (host : Host) (store : WorkspaceSnapshotStore) (id : Str) : Prop :=
  ∀ isDir workdir message,
    (restore host isDir store id workdir).2 ≠ some (.snapshotMissing message)

/-- The ids that are listed for the job are those that were created for it, and can be restored. -/
structure ListingExact (host : Host) (creations : List Creation) (jobId : Str) : Prop where
  ids : ∀ id, (∃ ref ∈ listForJob (createdStore host creations) jobId, ref.id = id) ↔
    ∃ c ∈ creations, c.succeeds host = true ∧ c.jobId = jobId ∧ c.id = id
  accepted : ∀ ref ∈ listForJob (createdStore host creations) jobId,
    Accepts host (createdStore host creations) ref.id

section Spec

variable {host : Host} {store : WorkspaceSnapshotStore} {creations : List Creation} {c : Creation}
  {jobId name : Str} {ref : SnapshotRef}

/-! ## Names -/

/-- The name of an archive without `.gz`. -/
theorem stem_archiveName (id : Str) : stem (archiveName id) = id ++ ".tar".toList := by
  have hsplit : archiveName id = (id ++ ".tar".toList) ++ '.' :: "gz".toList := by
    rw [archiveName, List.append_assoc]
    rfl
  rw [stem, hsplit, rpartition_append '.' (by decide)]

/-- The id of a snapshot starts with the text of its job. -/
theorem startsWith_id (c : Creation) : startsWith c.id (jobText c.jobId) = true :=
  List.isPrefixOf_iff_prefix.mpr (List.prefix_append _ _)

/-- What ends with a dash starts an id followed by `.tar` exactly if it starts the id. -/
theorem startsWith_tar_iff {id : Str} :
    startsWith (id ++ ".tar".toList) (jobText jobId) = true ↔
      startsWith id (jobText jobId) = true := by
  rw [startsWith, startsWith, List.isPrefixOf_iff_prefix, List.isPrefixOf_iff_prefix]
  refine ⟨fun h => ?_, fun h => h.trans (List.prefix_append _ _)⟩
  rcases List.prefix_or_prefix_of_prefix h (List.prefix_append id _) with hid | ⟨rest, hrest⟩
  · exact hid
  · -- The text goes on after the id, up to its dash.
    rcases List.eq_nil_or_concat rest with rfl | ⟨most, last, rfl⟩
    · have heq : id = jobText jobId := (List.append_nil id).symm.trans hrest
      exact heq ▸ List.prefix_refl id
    · rw [List.concat_eq_append, ← List.append_assoc] at hrest
      obtain ⟨-, hlast⟩ := List.append_inj' hrest rfl
      obtain ⟨after, hafter⟩ := h
      rw [← hrest, List.append_assoc, List.append_assoc] at hafter
      have htar := List.append_cancel_left hafter
      have hmem : last ∈ ".tar".toList := htar ▸ List.mem_append_right most List.mem_cons_self
      obtain rfl : last = '-' := (List.cons.inj hlast).1
      exact absurd hmem (by decide)

/-- No id of a snapshot ends with `.tar`. -/
theorem id_ne_tar (c : Creation) (id : Str) : c.id ≠ id ++ ".tar".toList := by
  intro h
  have hlong : c.token.text ≠ [] := by
    intro hnil
    have hlength := c.token.length
    rw [hnil] at hlength
    cases hlength
  have htoken : c.id.getLast? = c.token.text.getLast? := by
    have hsplit : c.id = (jobText c.jobId ++ c.phase ++ ['-']) ++ c.token.text := by
      rw [Creation.id, snapId, List.append_assoc, List.append_assoc]
      rfl
    rw [hsplit, List.getLast?_append_of_ne_nil _ hlong]
  have htar : (id ++ ".tar".toList).getLast? = some 'r' :=
    List.getLast?_append_of_ne_nil _ (by decide)
  have hlast : c.token.text.getLast? = some 'r' := by rw [← htoken, h, htar]
  exact absurd (c.token.hex 'r' (List.mem_of_getLast? hlast)) (by decide)

/-! ## The archives of a store -/

/-- What one `create` does to the store. -/
theorem create_cases (store : WorkspaceSnapshotStore) (c : Creation) :
    create host store c.jobId c.phase c.token c.entries =
      if c.succeeds host then
        .ok (c.id, store.set (archiveName c.id)
          (addAll (c.entries.filter fun child => !excludedDirs.contains child.1)))
      else .error (.cannotOpen (archiveName c.id)) := rfl

/-- The archives of a store are those of the snapshots that were created. -/
theorem isSome_createdStore_iff :
    ((createdStore host creations).get? name).isSome = true ↔
      ∃ c ∈ creations, c.succeeds host = true ∧ archiveName c.id = name := by
  induction creations using List.reverseRecOn with
  | nil => simp [createdStore]
  | append_singleton creations c ih =>
    have hstep : createdStore host (creations ++ [c]) =
        if c.succeeds host then (createdStore host creations).set (archiveName c.id)
          (addAll (c.entries.filter fun child => !excludedDirs.contains child.1))
        else createdStore host creations := by
      rw [createdStore, List.foldl_append, List.foldl_cons, List.foldl_nil, ← createdStore,
        create_cases]
      cases c.succeeds host with
      | true => rfl
      | false => rfl
    simp only [List.mem_append, List.mem_singleton, or_and_right, exists_or, exists_eq_left, ← ih,
      hstep]
    cases hsucceeds : c.succeeds host with
    | false => simp
    | true =>
      rw [if_pos rfl, Dict.get?_set]
      by_cases hname : name = archiveName c.id
      · simp [hname]
      · rw [if_neg hname]
        exact ⟨.inl, fun h => h.resolve_right fun heq => hname heq.2.symm⟩

/-- The names of archives are matched. -/
theorem globbed_archiveName (c : Creation) : globbed (archiveName c.id) = true := by
  have hstarts : "snap-".toList <+: c.id :=
    ((List.prefix_append _ _).trans (List.prefix_append _ _)).trans (List.prefix_append _ _)
  have hlong : 5 ≤ c.id.length := hstarts.length_le
  rw [globbed, Bool.and_eq_true]
  refine ⟨List.isPrefixOf_iff_prefix.mpr (hstarts.trans (List.prefix_append _ _)), ?_⟩
  rw [archiveName, List.drop_append_of_le_length hlong]
  exact List.isSuffixOf_iff_suffix.mpr (List.suffix_append _ _)

/-- **What is listed for a job**: the ids that start with its text, with `.tar` at the end. -/
theorem exists_listed_iff {id : Str} :
    (∃ ref ∈ listForJob (createdStore host creations) jobId, ref.id = id) ↔
      ∃ c ∈ creations, c.succeeds host = true ∧ startsWith c.id (jobText jobId) = true ∧
        c.id ++ ".tar".toList = id := by
  simp only [listForJob, List.mem_filterMap, List.mem_mergeSort, List.mem_filter]
  constructor
  · rintro ⟨ref, ⟨name, ⟨hname, -⟩, hlisted⟩, rfl⟩
    obtain ⟨item, hitem, rfl⟩ := List.mem_map.mp hname
    have hsome : ((createdStore host creations).get? item.1).isSome = true := by
      rw [Dict.mem_items_iff.mp hitem]
      rfl
    obtain ⟨c, hc, hsucceeds, harchive⟩ := isSome_createdStore_iff.mp hsome
    rw [← harchive, listed, stem_archiveName] at hlisted
    split at hlisted
    next hstarts =>
      obtain rfl := Option.some.inj hlisted
      exact ⟨c, hc, hsucceeds, startsWith_tar_iff.mp hstarts, rfl⟩
    next => cases hlisted
  · rintro ⟨c, hc, hsucceeds, hstarts, rfl⟩
    obtain ⟨members, hmembers⟩ :=
      Option.isSome_iff_exists.mp (isSome_createdStore_iff.mpr ⟨c, hc, hsucceeds, rfl⟩)
    have hname : archiveName c.id ∈ (createdStore host creations).items.map Prod.fst :=
      List.mem_map.mpr ⟨_, Dict.mem_items_iff.mpr hmembers, rfl⟩
    have hlisted : ∃ ref, listed jobId (archiveName c.id) = some ref ∧
        ref.id = c.id ++ ".tar".toList := by
      rw [listed, stem_archiveName, if_pos (startsWith_tar_iff.mpr hstarts)]
      exact ⟨_, rfl, rfl⟩
    obtain ⟨ref, href, hid⟩ := hlisted
    exact ⟨ref, ⟨archiveName c.id, ⟨hname, globbed_archiveName c⟩, href⟩, hid⟩

/-- **The listing of a job is exact** exactly if no id that was created starts with the text of the job,
so that nothing is listed, and nothing was created for it. -/
theorem listing_exact_iff :
    ListingExact host creations jobId ↔
      ∀ c ∈ creations, c.succeeds host = true → startsWith c.id (jobText jobId) = false := by
  constructor
  · intro h c hc hsucceeds
    by_contra hstarts
    rw [Bool.not_eq_false] at hstarts
    obtain ⟨c', -, -, -, hid⟩ := (h.ids _).mp (exists_listed_iff.mpr ⟨c, hc, hsucceeds, hstarts, rfl⟩)
    exact id_ne_tar c' c.id hid
  · intro h
    have hnone : ∀ id, ¬∃ ref ∈ listForJob (createdStore host creations) jobId, ref.id = id := by
      intro id hlisted
      obtain ⟨c, hc, hsucceeds, hstarts, -⟩ := exists_listed_iff.mp hlisted
      rw [h c hc hsucceeds] at hstarts
      cases hstarts
    refine ⟨fun id => iff_of_false (hnone id) ?_,
      fun ref href => absurd ⟨ref, href, rfl⟩ (hnone ref.id)⟩
    rintro ⟨c, hc, hsucceeds, rfl, -⟩
    have hstarts := h c hc hsucceeds
    rw [startsWith_id] at hstarts
    cases hstarts

end Spec

end Checkpoints

end SecOpent
