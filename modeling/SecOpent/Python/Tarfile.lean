import SecOpent.Python.Text

/-!
# Archives of directory trees

`tarfile`: `TarFile.add` stores what is under a name, and leaves sockets out; `TarFile.extractall` with
the filter `data` writes it again, and refuses special files and some symbolic links. A directory is the
list of its entries, in the order of their names. Owners, modes and times are left out.

## Main definitions

* `Entry`, `Member`: what is under a name, and what an archive has of it
* `addAll`, `extractAll`: the two operations, on the entries of a directory
* `leavesAll`: what is under the directory, other than directories

## Main results

* `extractAll_addAll_iff`: which directories are extracted as they were
-/

namespace Python

namespace Tarfile

/-- What is under a name. -/
inductive Entry
  | file (content : List UInt8)
  | dir (entries : List (Str × Entry))
  | link (target : Str)
  | socket
  | special

/-- What an archive has under a name. -/
inductive Member
  | file (content : List UInt8)
  | dir (members : List (Str × Member))
  | link (target : Str)
  | special

/-- Why the filter `data` refuses a member: `SpecialFileError`, and `AbsoluteLinkError` or
`LinkOutsideDestinationError`. -/
inductive TarError
  | specialFile (path : List Str)
  | linkRefused (path : List Str)
  deriving DecidableEq, Repr

/-- What the filter `data` makes of the symbolic link at a path: the target that is written, or none if
it refuses the link. It follows the links that are there, so the answer is not in the link alone. -/
abbrev LinkFilter := List Str → Str → Option Str

mutual

/-- `TarFile.add`: there is no member for a socket. -/
def add : Entry → Option Member
  | .file content => some (.file content)
  | .dir entries => some (.dir (addAll entries))
  | .link target => some (.link target)
  | .socket => none
  | .special => some .special

/-- `TarFile.add`, on the entries of a directory. -/
def addAll : List (Str × Entry) → List (Str × Member)
  | [] => []
  | (name, entry) :: rest =>
    match add entry with
    | none => addAll rest
    | some member => (name, member) :: addAll rest

end

mutual

/-- `TarFile.extract`, with what it has written when it ends. -/
def extract (filter : LinkFilter) (path : List Str) : Member → Option Entry × Option TarError
  | .file content => (some (.file content), none)
  | .dir members =>
    let (entries, error) := extractAll filter path members
    (some (.dir entries), error)
  | .link target =>
    match filter path target with
    | some written => (some (.link written), none)
    | none => (none, some (.linkRefused path))
  | .special => (none, some (.specialFile path))

/-- `TarFile.extractall`: the first refused member ends it. -/
def extractAll (filter : LinkFilter) (path : List Str) :
    List (Str × Member) → List (Str × Entry) × Option TarError
  | [] => ([], none)
  | (name, member) :: rest =>
    match extract filter (path ++ [name]) member with
    | (written, some error) => (written.toList.map (Prod.mk name), some error)
    | (written, none) =>
      let (entries, error) := extractAll filter path rest
      (written.toList.map (Prod.mk name) ++ entries, error)

end

mutual

/-- What is under a name, other than directories, with the paths. -/
def leaves (path : List Str) : Entry → List (List Str × Entry)
  | .file content => [(path, .file content)]
  | .dir entries => leavesAll path entries
  | .link target => [(path, .link target)]
  | .socket => [(path, .socket)]
  | .special => [(path, .special)]

/-- What is under a directory, other than directories. -/
def leavesAll (path : List Str) : List (Str × Entry) → List (List Str × Entry)
  | [] => []
  | (name, entry) :: rest => leaves (path ++ [name]) entry ++ leavesAll path rest

end

/-- A file, or a symbolic link that the filter leaves as it is. -/
def Keeps (filter : LinkFilter) : List Str × Entry → Prop
  | (_, .file _) => True
  | (path, .link target) => filter path target = some target
  | _ => False

section Spec

variable {filter : LinkFilter}

theorem length_addAll_le (entries : List (Str × Entry)) : (addAll entries).length ≤ entries.length := by
  induction entries with
  | nil => exact le_rfl
  | cons first rest ih =>
    obtain ⟨name, entry⟩ := first
    rw [addAll]
    split
    · exact ih.trans (Nat.le_succ _)
    · exact Nat.succ_le_succ ih

theorem length_extractAll_le (path : List Str) (members : List (Str × Member)) :
    (extractAll filter path members).1.length ≤ members.length := by
  induction members with
  | nil => exact le_rfl
  | cons first rest ih =>
    obtain ⟨name, member⟩ := first
    have hone : ∀ written : Option Entry, (written.toList.map (Prod.mk name)).length ≤ 1 := by
      intro written
      cases written with
      | none => exact Nat.zero_le 1
      | some entry => exact le_rfl
    rw [extractAll]
    split
    next written error _ => exact (hone written).trans (Nat.le_add_left _ _)
    next written _ =>
      rw [List.length_append, List.length_cons, Nat.add_comm]
      exact Nat.add_le_add ih (hone written)

mutual

/-- **What is extracted as it was**: a tree of files and of links that the filter leaves as they are. -/
theorem extract_add_iff (path : List Str) (entry : Entry) :
    (∃ member, add entry = some member ∧ extract filter path member = (some entry, none)) ↔
      ∀ leaf ∈ leaves path entry, Keeps filter leaf := by
  cases entry with
  | file content =>
    simp [add, extract, leaves, Keeps]
  | dir entries =>
    rw [leaves, ← extractAll_addAll_iff path entries]
    simp only [add, Option.some.injEq, exists_eq_left', extract, Entry.dir.injEq,
      Prod.ext_iff]
  | link target =>
    simp only [add, Option.some.injEq, exists_eq_left', extract, leaves, List.mem_singleton,
      forall_eq, Keeps]
    cases filter path target with
    | none => simp
    | some written => simp
  | socket => simp [add, leaves, Keeps]
  | special => simp [add, extract, leaves, Keeps]

/-- **Which directories are extracted as they were**: those of which every entry is. -/
theorem extractAll_addAll_iff (path : List Str) (entries : List (Str × Entry)) :
    extractAll filter path (addAll entries) = (entries, none) ↔
      ∀ leaf ∈ leavesAll path entries, Keeps filter leaf := by
  cases entries with
  | nil => simp [addAll, extractAll, leavesAll]
  | cons first rest =>
    obtain ⟨name, entry⟩ := first
    have hfirst := extract_add_iff (path ++ [name]) entry
    have hrest := extractAll_addAll_iff path rest
    simp only [leavesAll, List.mem_append, or_imp, forall_and, ← hfirst, ← hrest]
    rw [addAll]
    cases hadd : add entry with
    | none =>
      -- The entry is left out, so what is extracted is too short.
      refine iff_of_false (fun h => ?_) (by simp)
      have hlength := congrArg (fun extracted => extracted.1.length) h
      have hle := (@length_extractAll_le filter path (addAll rest)).trans
        (length_addAll_le rest)
      simp only [List.length_cons] at hlength
      omega
    | some member =>
      simp only [Option.some.injEq, exists_eq_left', extractAll]
      rcases hextract : extract filter (path ++ [name]) member with ⟨written, error⟩
      cases error with
      | some error => simp
      | none =>
        cases written with
        | none =>
          refine iff_of_false (fun h => ?_) (by simp)
          have hlength := congrArg (fun extracted => extracted.1.length) h
          have hle := (@length_extractAll_le filter path (addAll rest)).trans
            (length_addAll_le rest)
          simp at hlength
          omega
        | some found => simp [Prod.ext_iff, and_assoc]

end

end Spec

end Tarfile

end Python
