import Mathlib.Data.Finset.Erase
import Mathlib.Data.Finset.Insert
import Mathlib.Logic.Function.Basic
import SecOpent.Evidence.Redaction
import SecOpent.Transition.Conditions

/-!
# Network namespaces of running assessments

`infrastructure/egress/netns_isolator.py` and the part of `_run_assessment_daemon` in
`interfaces/api/routers/assessments.py` that creates and destroys the namespace of an assessment. Daemons
run side by side, and each is a sequence of commands that may fail at any point. `ip netns add` fails on a
name that is taken, so a namespace has one holder at a time, from the command that adds it to the one that
deletes it; a holder that gives up leaves the name taken for good.

## Main definitions

* `Exclusive`, `Idle`: names that have at most one holder, and names that are taken and have none
* `NameMoved`: what a holder may do to the names
* `HostCommand.run`, `HostCommand.Ran`: a command, and what it does
* `Daemon`, `Host`: a daemon at its next command, and the host with its namespaces and containers
* `Host.step`: a command of a daemon, with its outcome
* `Host.Orderly`: a step that loses no name

## Main results

* `Exclusive.nameMoved`, `idle_of_kept`, `Exclusive.idle_of_lost`: the names after a move
* `Host.moved_next`: a step of a daemon is a move
* `Host.Consistent.of_reaches`: what holds whatever commands fail, in whatever order daemons run
* `namespaces_apart`: handles that are in use share neither namespace nor sidecar, and both are there
* `left_behind_iff`: names are left behind exactly if a step was not orderly
-/

namespace SecOpent

open Python Transition

/-! ## Names with one holder -/

section Exclusive

variable {α : Type}

/-- What is held is taken, by one holder. -/
structure Exclusive (taken : Finset α) (held : ℕ → Option α) : Prop where
  taken : ∀ i x, held i = some x → x ∈ taken
  apart : ∀ i j x, held i = some x → held j = some x → i = j

/-- What is taken and held by nobody. -/
def Idle (taken : Finset α) (held : ℕ → Option α) : Set α := {x | x ∈ taken ∧ ∀ i, held i ≠ some x}

theorem held_update_cases {held : ℕ → Option α} {i j : ℕ} {next : Option α} {x : α}
    (h : Function.update held i next j = some x) :
    (j = i ∧ next = some x) ∨ (j ≠ i ∧ held j = some x) := by
  rw [Function.update_apply] at h
  split at h
  next hji => exact Or.inl ⟨hji, h⟩
  next hji => exact Or.inr ⟨hji, h⟩

variable {taken taken' : Finset α} {held : ℕ → Option α} {i : ℕ} {lost : Bool} {next : Option α}

theorem mem_idle_update {x : α} : x ∈ Idle taken' (Function.update held i next) ↔
    x ∈ taken' ∧ next ≠ some x ∧ ∀ j, j ≠ i → held j ≠ some x := by
  refine and_congr_right fun _ => ⟨fun h => ⟨?_, fun j hj => ?_⟩, fun h j hj => ?_⟩
  · have hown := h i
    rwa [Function.update_self] at hown
  · have hother := h j
    rwa [Function.update_of_ne hj] at hother
  · rcases held_update_cases hj with ⟨-, hnext⟩ | ⟨hne, hheld⟩
    · exact h.1 hnext
    · exact h.2 j hne hheld

theorem mem_idle_iff {x : α} :
    x ∈ Idle taken held ↔ x ∈ taken ∧ held i ≠ some x ∧ ∀ j, j ≠ i → held j ≠ some x := by
  rw [← mem_idle_update, Function.update_eq_self]

variable [DecidableEq α]

/-- What a holder may do: the names that are taken and its own name, before and after, and whether a name
is lost. -/
inductive NameMoved (taken : Finset α) : Bool → Option α → Finset α → Option α → Prop
  | keep (own : Option α) : NameMoved taken false own taken own
  | acquire {x : α} (hfree : x ∉ taken) : NameMoved taken false none (insert x taken) (some x)
  | release (x : α) : NameMoved taken false (some x) (taken.erase x) none
  /-- A name is taken, and its holder forgets it. -/
  | abandon (x : α) : NameMoved taken true (some x) taken none
  /-- A name becomes taken without a holder. -/
  | lose {x : α} (hfree : x ∉ taken) : NameMoved taken true none (insert x taken) none

/-- **Names stay apart**, whatever a holder does. -/
theorem Exclusive.nameMoved (h : Exclusive taken held)
    (hmoved : NameMoved taken lost (held i) taken' next) :
    Exclusive taken' (Function.update held i next) := by
  generalize hown : held i = own at hmoved
  -- A name that is acquired was free, so nobody else holds it.
  have hothers : ∀ x, next = some x → ∀ k, k ≠ i → held k ≠ some x := by
    rintro x rfl k hk hkx
    cases hmoved with
    | keep => exact hk (h.apart k i x hkx hown)
    | acquire hfree => exact hfree (h.taken k x hkx)
  refine ⟨fun j x hj => ?_, fun j k x hj hk => ?_⟩
  · rcases held_update_cases hj with ⟨-, rfl⟩ | ⟨hne, hheld⟩
    · cases hmoved with
      | keep => exact h.taken i x hown
      | acquire hfree => exact Finset.mem_insert_self _ _
    · have hmem := h.taken j x hheld
      cases hmoved with
      | keep => exact hmem
      | acquire hfree => exact Finset.mem_insert_of_mem hmem
      | release y =>
        refine Finset.mem_erase.mpr ⟨?_, hmem⟩
        rintro rfl
        exact hne (h.apart j i x hheld hown)
      | abandon y => exact hmem
      | lose hfree => exact Finset.mem_insert_of_mem hmem
  · rcases held_update_cases hj with ⟨rfl, hnext⟩ | ⟨hji, hheld⟩
    · rcases held_update_cases hk with ⟨rfl, -⟩ | ⟨hki, hheld⟩
      · rfl
      · exact absurd hheld (hothers x hnext k hki)
    · rcases held_update_cases hk with ⟨rfl, hnext⟩ | ⟨-, hheld'⟩
      · exact absurd hheld (hothers x hnext j hji)
      · exact h.apart j k x hheld hheld'

/-- Nothing becomes idle, and nothing that is idle is taken up, where no name is lost. -/
theorem idle_of_kept (hmoved : NameMoved taken false (held i) taken' next) :
    Idle taken' (Function.update held i next) = Idle taken held := by
  ext x
  rw [mem_idle_update, @mem_idle_iff _ taken held i]
  generalize hown : held i = own at hmoved
  cases hmoved with
  | keep => exact Iff.rfl
  | @acquire y hfree =>
    rw [Finset.mem_insert]
    constructor
    · rintro ⟨rfl | hmem, hne, hothers⟩
      · exact absurd rfl hne
      · exact ⟨hmem, by simp, hothers⟩
    · rintro ⟨hmem, -, hothers⟩
      refine ⟨Or.inr hmem, ?_, hothers⟩
      rintro ⟨⟩
      exact hfree hmem
  | release y =>
    rw [Finset.mem_erase]
    constructor
    · rintro ⟨⟨hne, hmem⟩, -, hothers⟩
      exact ⟨hmem, fun heq => hne (Option.some.inj heq).symm, hothers⟩
    · rintro ⟨hmem, hne, hothers⟩
      exact ⟨⟨fun heq => hne (congrArg some heq.symm), hmem⟩, by simp, hothers⟩

/-- A name that is lost becomes idle, and was not. -/
theorem Exclusive.idle_of_lost (h : Exclusive taken held)
    (hmoved : NameMoved taken true (held i) taken' next) :
    ∃ x, x ∉ Idle taken held ∧
      Idle taken' (Function.update held i next) = insert x (Idle taken held) := by
  generalize hown : held i = own at hmoved
  cases hmoved with
  | abandon y =>
    refine ⟨y, fun hidle => hidle.2 i hown, ?_⟩
    ext x
    rw [mem_idle_update, Set.mem_insert_iff, @mem_idle_iff _ taken held i, hown]
    constructor
    · rintro ⟨hmem, -, hothers⟩
      by_cases hxy : x = y
      · exact Or.inl hxy
      · exact Or.inr ⟨hmem, fun heq => hxy (Option.some.inj heq).symm, hothers⟩
    · rintro (rfl | ⟨hmem, -, hothers⟩)
      · exact ⟨h.taken i x hown, by simp, fun j hj heq => hj (h.apart j i x heq hown)⟩
      · exact ⟨hmem, by simp, hothers⟩
  | @lose y hfree =>
    refine ⟨y, fun hidle => hfree hidle.1, ?_⟩
    ext x
    rw [mem_idle_update, Set.mem_insert_iff, @mem_idle_iff _ taken held i, hown, Finset.mem_insert]
    constructor
    · rintro ⟨rfl | hmem, hne, hothers⟩
      · exact Or.inl rfl
      · exact Or.inr ⟨hmem, hne, hothers⟩
    · rintro (rfl | ⟨hmem, hne, hothers⟩)
      · exact ⟨Or.inl rfl, by simp, fun j _ heq => hfree (h.taken j x heq)⟩
      · exact ⟨Or.inr hmem, hne, hothers⟩

end Exclusive

/-! ## Names -/

/-- The slug of an id. -/
def slug (U : Unicode) (assessmentId : Str) : Str :=
  assessmentId.map fun c => if isAlnum U [c] || c == '-' || c == '_' then c else '-'

/-- `NetnsIsolator`, with its prefixes. -/
structure NetnsIsolator where
  unicode : Unicode
  namePrefix : Str := "secopent-".toList
  sidecarPrefix : Str := "secopent-netns-".toList

namespace NetnsIsolator

variable (isolator : NetnsIsolator)

/-- `_netns_name`. -/
def netnsName (assessmentId : Str) : Str := isolator.namePrefix ++ slug isolator.unicode assessmentId

/-- `_sidecar_name`. -/
def sidecarName (assessmentId : Str) : Str :=
  isolator.sidecarPrefix ++ slug isolator.unicode assessmentId

/-- The name that `_probe_capability` adds and deletes. -/
def probeName : Str := isolator.namePrefix ++ "probe".toList

/-- A sidecar has the name of one namespace. -/
theorem netnsName_eq_of_sidecarName_eq {id id' : Str}
    (h : isolator.sidecarName id = isolator.sidecarName id') :
    isolator.netnsName id = isolator.netnsName id' := by
  rw [netnsName, netnsName, List.append_cancel_left h]

end NetnsIsolator

/-! ## Daemons -/

/-- The next thing that a daemon does: a command, or a part of `_run_assessment_daemon`. -/
inductive DaemonPhase
  /-- What comes before `is_supported`, and the cache that `is_supported` reads. -/
  | starting
  /-- `ip netns add` and `ip netns del` of the probe. -/
  | probeAdd
  | probeDel
  /-- The commands of `create`. -/
  | netnsAdd
  | dockerRun
  | inspectPid
  | netnsAttach
  /-- The commands of `create` after a failure. -/
  | undoSidecar
  | undoNetns
  /-- `make_nft_enforcer`, with the name of the handle. -/
  | makeEnforcer
  /-- `execute_assessment`, with a handle or without. -/
  | executing (handle : Bool)
  /-- The commands of `destroy`. -/
  | removeSidecar
  | netnsDel
  | ended
  deriving DecidableEq, Repr

/-- How a command ends; a command that fails late has had its effect before. -/
inductive CommandOutcome
  | ok | failed | failedLate
  deriving DecidableEq, Repr

/-- A daemon, at its next phase. -/
structure Daemon where
  assessmentId : Str
  phase : DaemonPhase := .starting
  deriving DecidableEq

/-- The host. -/
structure Host where
  namespaces : Finset Str
  containers : Finset Str
  /-- `_capability_cache`. -/
  capability : Option Bool := none
  daemons : List Daemon

/-- A command of the host. -/
inductive HostCommand
  /-- `ip netns add`. -/
  | netnsAdd (name : Str)
  /-- `ip netns del`. -/
  | netnsDel (name : Str)
  /-- `docker run --name`. -/
  | dockerRun (name : Str)
  /-- `docker rm -f`. -/
  | dockerRm (name : Str)
  /-- What adds and removes nothing. -/
  | other
  deriving DecidableEq

/-- The host after a command. A command that fails late has done its work; a name that is taken is not
added. -/
def HostCommand.run (host : Host) : HostCommand → CommandOutcome → Option Host
  | .other, _ => some host
  | _, .failed => some host
  | .netnsAdd name, _ =>
    if name ∈ host.namespaces then none
    else some { host with namespaces := insert name host.namespaces }
  | .netnsDel name, _ => some { host with namespaces := host.namespaces.erase name }
  | .dockerRun name, _ =>
    if name ∈ host.containers then none
    else some { host with containers := insert name host.containers }
  | .dockerRm name, _ => some { host with containers := host.containers.erase name }

/-- What a command does: nothing where it fails at once, and otherwise what it is for. -/
inductive HostCommand.Ran (host : Host) (outcome : CommandOutcome) : HostCommand → Host → Prop
  | kept {command : HostCommand} (h : outcome = .failed ∨ command = .other) : Ran host outcome command host
  | netnsAdd {name : Str} (h : outcome ≠ .failed) (hfree : name ∉ host.namespaces) :
      Ran host outcome (.netnsAdd name) { host with namespaces := insert name host.namespaces }
  | netnsDel {name : Str} (h : outcome ≠ .failed) :
      Ran host outcome (.netnsDel name) { host with namespaces := host.namespaces.erase name }
  | dockerRun {name : Str} :
      Ran host outcome (.dockerRun name) { host with containers := insert name host.containers }
  | dockerRm {name : Str} :
      Ran host outcome (.dockerRm name) { host with containers := host.containers.erase name }

namespace DaemonPhase

/-- Between `ip netns add` and the command that deletes the namespace. -/
def holdsNetns : DaemonPhase → Bool
  | .dockerRun | .inspectPid | .netnsAttach | .undoSidecar | .undoNetns | .makeEnforcer
  | .executing true | .removeSidecar | .netnsDel => true
  | _ => false

/-- Between `docker run` and the command that removes the sidecar. -/
def hasSidecar : DaemonPhase → Bool
  | .inspectPid | .netnsAttach | .makeEnforcer | .executing true | .removeSidecar => true
  | _ => false

/-- The next phase. -/
def next (capability : Option Bool) : DaemonPhase → CommandOutcome → DaemonPhase
  | .starting, .ok =>
    match capability with
    | none => .probeAdd
    | some true => .netnsAdd
    | some false => .executing false
  | .starting, _ => .ended
  | .probeAdd, .ok => .probeDel
  | .probeAdd, _ => .executing false
  -- The exit status of the deletion is not checked; only a timeout is noticed.
  | .probeDel, .failedLate => .executing false
  | .probeDel, _ => .netnsAdd
  | .netnsAdd, .ok => .dockerRun
  | .netnsAdd, _ => .executing false
  | .dockerRun, .ok => .inspectPid
  | .inspectPid, .ok => .netnsAttach
  | .netnsAttach, .ok => .makeEnforcer
  | .dockerRun, _ | .inspectPid, _ | .netnsAttach, _ => .undoSidecar
  | .undoSidecar, _ => .undoNetns
  | .undoNetns, _ => .executing false
  | .makeEnforcer, .ok => .executing true
  -- The handle is dropped, and its namespace is not destroyed.
  | .makeEnforcer, _ => .executing false
  | .executing true, _ => .removeSidecar
  | .executing false, _ => .ended
  | .removeSidecar, .ok => .netnsDel
  -- `destroy` raises before it deletes the namespace.
  | .removeSidecar, _ => .ended
  | .netnsDel, _ => .ended
  | .ended, _ => .ended

/-- `_capability_cache` after the phase. -/
def capability (before : Option Bool) : DaemonPhase → CommandOutcome → Option Bool
  | .probeAdd, .ok => before
  | .probeAdd, _ => some false
  | .probeDel, .failedLate => some false
  | .probeDel, _ => some true
  | _, _ => before

/-- A name is lost: an addition fails late, a deletion fails, or a handle is dropped. -/
def loses : DaemonPhase → CommandOutcome → Bool
  | .probeAdd, .failedLate | .netnsAdd, .failedLate => true
  | .probeDel, .failed | .undoNetns, .failed | .netnsDel, .failed => true
  | .makeEnforcer, .failed | .makeEnforcer, .failedLate => true
  | .removeSidecar, .failed | .removeSidecar, .failedLate => true
  | _, _ => false

end DaemonPhase

namespace Daemon

variable (isolator : NetnsIsolator)

/-- The name of the namespace. -/
def netns (daemon : Daemon) : Str := isolator.netnsName daemon.assessmentId

/-- The name of the sidecar. -/
def sidecar (daemon : Daemon) : Str := isolator.sidecarName daemon.assessmentId

/-- The command of a phase. -/
def command (daemon : Daemon) : HostCommand :=
  match daemon.phase with
  | .probeAdd => .netnsAdd isolator.probeName
  | .probeDel => .netnsDel isolator.probeName
  | .netnsAdd => .netnsAdd (daemon.netns isolator)
  | .dockerRun => .dockerRun (daemon.sidecar isolator)
  | .undoSidecar | .removeSidecar => .dockerRm (daemon.sidecar isolator)
  | .undoNetns | .netnsDel => .netnsDel (daemon.netns isolator)
  | _ => .other

/-- The daemon at its next phase. -/
def next (capability : Option Bool) (outcome : CommandOutcome) (daemon : Daemon) : Daemon :=
  { daemon with phase := daemon.phase.next capability outcome }

/-- The name that a daemon holds. -/
def held (daemon : Daemon) : Option Str :=
  if daemon.phase = .probeDel then some isolator.probeName
  else if daemon.phase.holdsNetns then some (daemon.netns isolator)
  else none

end Daemon

namespace Host

variable (isolator : NetnsIsolator)

/-- A step of the daemon `i`, with the outcome of its command; a command cannot have every outcome. -/
def step (host : Host) (label : ℕ × CommandOutcome) : Option Host :=
  match host.daemons[label.1]? with
  | none => none
  | some daemon =>
    if daemon.phase = .ended then none
    else
      ((daemon.command isolator).run host label.2).map fun after => { after with
        capability := daemon.phase.capability host.capability label.2
        daemons := host.daemons.set label.1 (daemon.next host.capability label.2) }

/-- The names that the daemons hold. -/
def held (host : Host) (i : ℕ) : Option Str := host.daemons[i]?.bind (Daemon.held isolator)

/-- The step loses no name. -/
def Orderly (host : Host) (label : ℕ × CommandOutcome) : Prop :=
  ∀ daemon ∈ host.daemons[label.1]?, daemon.phase.loses label.2 = false

instance (host : Host) (label : ℕ × CommandOutcome) : Decidable (host.Orderly label) :=
  inferInstanceAs (Decidable (∀ daemon ∈ host.daemons[label.1]?, daemon.phase.loses label.2 = false))

section Steps

variable {isolator} {host host' : Host} {i : ℕ} {outcome : CommandOutcome}

theorem ran_of_run {command : HostCommand} (h : command.run host outcome = some host') :
    command.Ran host outcome host' := by
  by_cases hfailed : outcome = .failed
  · subst hfailed
    obtain rfl : host = host' := by cases command <;> exact Option.some.inj h
    exact .kept (Or.inl rfl)
  · cases command with
    | netnsAdd name | dockerRun name =>
      rw [HostCommand.run] at h
      · split at h
        next => cases h
        next hfree =>
          obtain rfl := Option.some.inj h
          first | exact .netnsAdd hfailed hfree | exact .dockerRun
      · exact hfailed
    | netnsDel name | dockerRm name =>
      rw [HostCommand.run] at h
      · obtain rfl := Option.some.inj h
        first | exact .netnsDel hfailed | exact .dockerRm
      · exact hfailed
    | other =>
      obtain rfl := Option.some.inj h
      exact .kept (Or.inr rfl)

/-- A name is added: it is acquired, or lost if the command fails late. -/
theorem moved_netnsAdd {name : Str} (h : (HostCommand.netnsAdd name).run host outcome = some host') :
    NameMoved host.namespaces (outcome = .failedLate) none host'.namespaces
      (if outcome = .ok then some name else none) := by
  cases ran_of_run h with
  | kept hkept =>
    obtain rfl := hkept.resolve_right (by simp)
    exact .keep none
  | netnsAdd hran hfree =>
    cases outcome with
    | ok => exact .acquire hfree
    | failed => exact absurd rfl hran
    | failedLate => exact .lose hfree

/-- A name is deleted: it is released, or abandoned if the command fails. -/
theorem moved_netnsDel {name : Str} (h : (HostCommand.netnsDel name).run host outcome = some host') :
    NameMoved host.namespaces (outcome = .failed) (some name) host'.namespaces none := by
  cases ran_of_run h with
  | kept hkept =>
    obtain rfl := hkept.resolve_right (by simp)
    exact .abandon name
  | netnsDel hran =>
    rw [decide_eq_false hran]
    exact .release name

/-- Other commands leave the namespaces as they are. -/
theorem namespaces_other {command : HostCommand} (h : command.run host outcome = some host')
    (hadd : ∀ name, command ≠ .netnsAdd name) (hdel : ∀ name, command ≠ .netnsDel name) :
    host'.namespaces = host.namespaces := by
  cases ran_of_run h with
  | netnsAdd => exact absurd rfl (hadd _)
  | netnsDel => exact absurd rfl (hdel _)
  | kept | dockerRun | dockerRm => rfl

/-- **What a daemon does to the names**: a step keeps, acquires or releases the name of the daemon, or
loses it. -/
theorem moved_next {daemon : Daemon} {capability : Option Bool}
    (h : (daemon.command isolator).run host outcome = some host') :
    NameMoved host.namespaces (daemon.phase.loses outcome) (daemon.held isolator) host'.namespaces
      ((daemon.next capability outcome).held isolator) := by
  obtain ⟨assessmentId, phase⟩ := daemon
  have hother := namespaces_other h
  let name := isolator.netnsName assessmentId
  cases phase with
  | starting =>
    rw [hother (by simp [Daemon.command]) (by simp [Daemon.command])]
    cases outcome with
    | ok =>
      cases capability with
      | none => exact .keep none
      | some usable => cases usable <;> exact .keep none
    | failed | failedLate => exact .keep none
  | probeAdd | netnsAdd =>
    have hmoved := moved_netnsAdd h
    cases outcome <;> exact hmoved
  | probeDel | undoNetns | netnsDel =>
    have hmoved := moved_netnsDel h
    cases outcome <;> exact hmoved
  | dockerRun | inspectPid | netnsAttach | undoSidecar =>
    -- The namespace is kept, also on the way to its deletion.
    rw [hother (by simp [Daemon.command]) (by simp [Daemon.command])]
    cases outcome <;> exact .keep (some name)
  | makeEnforcer | removeSidecar =>
    rw [hother (by simp [Daemon.command]) (by simp [Daemon.command])]
    cases outcome with
    | ok => exact .keep (some name)
    | failed | failedLate => exact .abandon name
  | executing handle =>
    rw [hother (by simp [Daemon.command]) (by simp [Daemon.command])]
    cases handle with
    | false => cases outcome <;> exact .keep none
    | true => cases outcome <;> exact .keep (some name)
  | ended =>
    rw [hother (by simp [Daemon.command]) (by simp [Daemon.command])]
    cases outcome <;> exact .keep none

/-- A step is a command of one daemon. -/
theorem step_cases {label : ℕ × CommandOutcome} (h : host.step isolator label = some host') :
    ∃ daemon after, host.daemons[label.1]? = some daemon ∧ daemon.phase ≠ .ended ∧
      (daemon.command isolator).run host label.2 = some after ∧
      host' = { after with
        capability := daemon.phase.capability host.capability label.2
        daemons := host.daemons.set label.1 (daemon.next host.capability label.2) } := by
  rw [step] at h
  split at h
  next => cases h
  next daemon hdaemon =>
    split at h
    next => cases h
    next hphase =>
      obtain ⟨after, hrun, rfl⟩ := Option.map_eq_some_iff.mp h
      exact ⟨daemon, after, hdaemon, hphase, hrun, rfl⟩

theorem held_set {daemon next : Daemon} (h : host.daemons[i]? = some daemon)
    (hdaemons : host'.daemons = host.daemons.set i next) :
    host'.held isolator = Function.update (host.held isolator) i (next.held isolator) := by
  obtain ⟨hlt, -⟩ := List.getElem?_eq_some_iff.mp h
  funext j
  rw [held, hdaemons, Function.update_apply]
  split
  next hji =>
    rw [hji, List.getElem?_set_self hlt]
    rfl
  next hji =>
    rw [List.getElem?_set_ne fun hij => hji hij.symm]
    rfl

/-- **What a step does to the names.** -/
theorem moved_step {label : ℕ × CommandOutcome} (h : host.step isolator label = some host') :
    ∃ daemon next, host.daemons[label.1]? = some daemon ∧
      host'.held isolator = Function.update (host.held isolator) label.1 next ∧
      NameMoved host.namespaces (daemon.phase.loses label.2) (host.held isolator label.1) host'.namespaces
        next := by
  obtain ⟨daemon, after, hdaemon, -, hrun, rfl⟩ := step_cases h
  have hmoved := @moved_next isolator host after label.2 daemon host.capability hrun
  refine ⟨daemon, _, hdaemon, held_set hdaemon rfl, ?_⟩
  rw [held, hdaemon]
  exact hmoved

/-- What is taken and held by no daemon. -/
def idle (isolator : NetnsIsolator) (host : Host) : Set Str := Idle host.namespaces (host.held isolator)

theorem exclusive_step {label : ℕ × CommandOutcome}
    (hexclusive : Exclusive host.namespaces (host.held isolator))
    (h : host.step isolator label = some host') : Exclusive host'.namespaces (host'.held isolator) := by
  obtain ⟨daemon, next, -, hheld, hmoved⟩ := moved_step h
  rw [hheld]
  exact hexclusive.nameMoved hmoved

/-- An orderly step leaves nothing behind, and any other leaves a name behind. -/
theorem idle_step {label : ℕ × CommandOutcome}
    (hexclusive : Exclusive host.namespaces (host.held isolator))
    (h : host.step isolator label = some host') :
    (host.Orderly label ∧ host'.idle isolator = host.idle isolator) ∨
      ¬host.Orderly label ∧ ∃ name, name ∉ host.idle isolator ∧
        host'.idle isolator = insert name (host.idle isolator) := by
  obtain ⟨daemon, next, hdaemon, hheld, hmoved⟩ := moved_step h
  rw [idle, hheld, idle]
  cases hloses : daemon.phase.loses label.2 with
  | false =>
    rw [hloses] at hmoved
    refine Or.inl ⟨fun found hfound => ?_, idle_of_kept hmoved⟩
    rw [hdaemon] at hfound
    rw [← Option.some.inj hfound]
    exact hloses
  | true =>
    rw [hloses] at hmoved
    refine Or.inr ⟨fun horderly => ?_, hexclusive.idle_of_lost hmoved⟩
    rw [horderly daemon hdaemon] at hloses
    cases hloses

/-- A name that is left behind stays so. -/
theorem idle_mono_step {label : ℕ × CommandOutcome}
    (hexclusive : Exclusive host.namespaces (host.held isolator))
    (h : host.step isolator label = some host') : host.idle isolator ⊆ host'.idle isolator := by
  rcases idle_step hexclusive h with ⟨-, hsame⟩ | ⟨-, name, -, hinsert⟩
  · exact hsame.symm.subset
  · rw [hinsert]
    exact Set.subset_insert name _

/-- What a command does to the containers. -/
theorem containers_run {command : HostCommand} (h : command.run host outcome = some host') :
    (∃ name, command = .dockerRun name ∧ host'.containers = insert name host.containers) ∨
      (∃ name, command = .dockerRm name ∧ host'.containers = host.containers.erase name) ∨
      (host'.containers = host.containers ∧ ((∀ name, command ≠ .dockerRun name) ∨ outcome ≠ .ok)) := by
  cases ran_of_run h with
  | kept hkept =>
    refine Or.inr (Or.inr ⟨rfl, ?_⟩)
    rcases hkept with rfl | rfl
    · exact Or.inr (by simp)
    · exact Or.inl (by simp)
  | netnsAdd | netnsDel => exact Or.inr (Or.inr ⟨rfl, Or.inl (by simp)⟩)
  | dockerRun => exact Or.inl ⟨_, rfl, rfl⟩
  | dockerRm => exact Or.inr (Or.inl ⟨_, rfl, rfl⟩)

/-- A daemon that has a sidecar holds its namespace. -/
theorem held_of_hasSidecar {daemon : Daemon} (h : daemon.phase.hasSidecar = true) :
    daemon.held isolator = some (daemon.netns isolator) := by
  obtain ⟨assessmentId, phase⟩ := daemon
  cases phase with
  | executing handle =>
    cases handle with
    | false => cases h
    | true => rfl
  | inspectPid | netnsAttach | makeEnforcer | removeSidecar => rfl
  | _ => cases h

/-- A daemon that removes a sidecar holds its namespace, and has no sidecar after that. -/
theorem held_of_dockerRm {daemon : Daemon} {name : Str}
    (h : daemon.command isolator = .dockerRm name) :
    name = daemon.sidecar isolator ∧ daemon.held isolator = some (daemon.netns isolator) ∧
      ∀ capability outcome, (daemon.next capability outcome).phase.hasSidecar = false := by
  obtain ⟨assessmentId, phase⟩ := daemon
  cases phase with
  | undoSidecar | removeSidecar =>
    cases h
    refine ⟨rfl, rfl, fun capability outcome => ?_⟩
    cases outcome <;> rfl
  | _ => cases h

/-- A daemon has a sidecar if it had one, or if it has just run it. -/
theorem hasSidecar_next {daemon : Daemon} {capability : Option Bool}
    (h : (daemon.next capability outcome).phase.hasSidecar = true) :
    daemon.phase.hasSidecar = true ∨
      daemon.command isolator = .dockerRun (daemon.sidecar isolator) ∧ outcome = .ok := by
  obtain ⟨assessmentId, phase⟩ := daemon
  cases phase with
  | starting =>
    cases outcome with
    | ok =>
      cases capability with
      | none => cases h
      | some usable => cases usable <;> cases h
    | failed | failedLate => cases h
  | dockerRun =>
    cases outcome with
    | ok => exact Or.inr ⟨rfl, rfl⟩
    | failed | failedLate => cases h
  | inspectPid | netnsAttach | makeEnforcer | removeSidecar => exact Or.inl rfl
  | executing handle =>
    cases handle with
    | false => cases outcome <;> cases h
    | true => exact Or.inl rfl
  | probeAdd | probeDel | netnsAdd | undoSidecar | undoNetns | netnsDel | ended =>
    cases outcome <;> cases h

/-- What holds whatever commands fail: names are held by one daemon, and a daemon that has a sidecar finds
it. -/
structure Consistent (isolator : NetnsIsolator) (host : Host) : Prop where
  exclusive : Exclusive host.namespaces (host.held isolator)
  sidecar : ∀ (i : ℕ) (daemon : Daemon), host.daemons[i]? = some daemon → daemon.phase.hasSidecar = true →
    daemon.sidecar isolator ∈ host.containers

/-- Only the holder of a namespace removes its sidecar. -/
theorem Consistent.step (h : Consistent isolator host) {label : ℕ × CommandOutcome}
    (hstep : host.step isolator label = some host') : Consistent isolator host' := by
  refine ⟨exclusive_step h.exclusive hstep, fun j other hother hsidecar => ?_⟩
  obtain ⟨daemon, after, hdaemon, -, hrun, rfl⟩ := step_cases hstep
  change other.sidecar isolator ∈ after.containers
  rcases getElem?_set_cases hother with ⟨rfl, rfl⟩ | ⟨hne, hother⟩
  · rcases containers_run hrun with ⟨name, hcommand, hcontainers⟩ | ⟨name, hcommand, -⟩ |
      ⟨hsame, hnot⟩
    · rw [hcontainers]
      rcases @hasSidecar_next isolator label.2 daemon host.capability hsidecar with hhad | ⟨hrunning, -⟩
      · exact Finset.mem_insert_of_mem (h.sidecar _ daemon hdaemon hhad)
      · rw [hcommand] at hrunning
        rw [HostCommand.dockerRun.inj hrunning]
        exact Finset.mem_insert_self _ _
    · rw [(held_of_dockerRm hcommand).2.2] at hsidecar
      cases hsidecar
    · rw [hsame]
      rcases @hasSidecar_next isolator label.2 daemon host.capability hsidecar with hhad | ⟨hrunning, hok⟩
      · exact h.sidecar _ daemon hdaemon hhad
      · exact absurd hrunning ((hnot.resolve_right fun hbad => hbad hok) _)
  · have hmem := h.sidecar j other hother hsidecar
    rcases containers_run hrun with ⟨name, -, hcontainers⟩ | ⟨name, hcommand, hcontainers⟩ | ⟨hsame, -⟩
    · rw [hcontainers]
      exact Finset.mem_insert_of_mem hmem
    · -- Two sidecars of one name would be of one namespace, which has one holder.
      obtain ⟨rfl, hheld, -⟩ := held_of_dockerRm hcommand
      rw [hcontainers]
      refine Finset.mem_erase.mpr ⟨fun heq => hne ?_, hmem⟩
      refine h.exclusive.apart j label.1 (daemon.netns isolator) ?_ ?_
      · rw [held, hother]
        refine (held_of_hasSidecar hsidecar).trans (congrArg some ?_)
        exact isolator.netnsName_eq_of_sidecarName_eq heq
      · rw [held, hdaemon]
        exact hheld
    · rw [hsame]
      exact hmem

/-- The host with daemons that have not begun. -/
def start (namespaces containers : Finset Str) (capability : Option Bool) (ids : List Str) : Host where
  namespaces := namespaces
  containers := containers
  capability := capability
  daemons := ids.map fun assessmentId => { assessmentId }

variable {namespaces containers : Finset Str} {capability : Option Bool} {ids : List Str}

theorem held_start : (start namespaces containers capability ids).held isolator i = none := by
  rw [held, start, List.getElem?_map]
  cases ids[i]? <;> rfl

theorem consistent_start : Consistent isolator (start namespaces containers capability ids) := by
  refine ⟨⟨fun i x hx => ?_, fun i j x hx => ?_⟩, fun i daemon hdaemon hsidecar => ?_⟩
  · rw [held_start] at hx
    cases hx
  · rw [held_start] at hx
    cases hx
  · obtain ⟨id, -, rfl⟩ := List.mem_map.mp (List.mem_of_getElem? hdaemon)
    cases hsidecar

theorem idle_start :
    (start namespaces containers capability ids).idle isolator = {name | name ∈ namespaces} := by
  ext name
  refine ⟨And.left, fun hname => ⟨hname, fun i => ?_⟩⟩
  rw [held_start]
  exact Option.some_ne_none name |>.symm

/-- **Whatever commands fail**, in whatever order the daemons run. -/
theorem Consistent.of_reaches
    (h : Reaches (Host.step isolator) (fun _ _ => True) (start namespaces containers capability ids) host) :
    Consistent isolator host :=
  h.invariant consistent_start fun _ _ _ hbefore _ hstep => hbefore.step hstep

end Steps

end Host

/-- The daemon `i` is between the creation and the destruction of its namespace. -/
def Host.InUse (host : Host) (i : ℕ) (daemon : Daemon) : Prop :=
  host.daemons[i]? = some daemon ∧ daemon.phase.holdsNetns = true

theorem Host.InUse.held {isolator : NetnsIsolator} {host : Host} {i : ℕ} {daemon : Daemon}
    (h : host.InUse i daemon) : host.held isolator i = some (daemon.netns isolator) := by
  have hprobe : daemon.phase ≠ .probeDel := by
    intro heq
    have hholds := h.2
    rw [heq] at hholds
    cases hholds
  rw [Host.held, h.1, Option.bind_some, Daemon.held, if_neg hprobe, if_pos h.2]

/-- **Handles that are in use are apart**: two daemons between the creation and the destruction of their
namespaces have different namespaces and different sidecars, the namespace is there, and so is the sidecar
once it runs. What is taken and held by nobody stays taken. -/
theorem namespaces_apart {isolator : NetnsIsolator} {namespaces containers : Finset Str}
    {capability : Option Bool} {ids : List Str} {host : Host}
    (h : Reaches (Host.step isolator) (fun _ _ => True)
      (Host.start namespaces containers capability ids) host) :
    (∀ i j daemon other, host.InUse i daemon → host.InUse j other → i ≠ j →
      daemon.netns isolator ≠ other.netns isolator ∧
        daemon.sidecar isolator ≠ other.sidecar isolator) ∧
    (∀ i daemon, host.InUse i daemon → daemon.netns isolator ∈ host.namespaces ∧
      (daemon.phase.hasSidecar = true → daemon.sidecar isolator ∈ host.containers)) ∧
    ∀ later, Reaches (Host.step isolator) (fun _ _ => True) host later →
      host.idle isolator ⊆ later.idle isolator := by
  have hconsistent := Host.Consistent.of_reaches h
  refine ⟨fun i j daemon other hi hj hne => ?_, fun i daemon hi => ?_, fun later hlater => ?_⟩
  · have hapart : daemon.netns isolator ≠ other.netns isolator := by
      intro heq
      have hother := @Host.InUse.held isolator host j other hj
      rw [← heq] at hother
      exact hne (hconsistent.exclusive.apart i j _ hi.held hother)
    exact ⟨hapart, fun heq => hapart (isolator.netnsName_eq_of_sidecarName_eq heq)⟩
  · exact ⟨hconsistent.exclusive.taken i _ hi.held, hconsistent.sidecar i daemon hi.1⟩
  · let Kept : Host → Prop := fun reached =>
      Host.Consistent isolator reached ∧ host.idle isolator ⊆ reached.idle isolator
    have hstart : Kept host := ⟨hconsistent, subset_rfl⟩
    have hkept : Kept later := by
      refine hlater.invariant hstart ?_
      rintro before label after ⟨hbefore, hsubset⟩ - hstep
      exact ⟨hbefore.step hstep, hsubset.trans (Host.idle_mono_step hbefore.exclusive hstep)⟩
    exact hkept.2

/-- Three daemons, of which two have ids with one slug. -/
def threeDaemons : Host := Host.start ∅ ∅ none ["a.1".toList, "a-1".toList, "b".toList]

/-- The second daemon does not get the namespace, and goes on without it. -/
def oneSlug : List (ℕ × CommandOutcome) :=
  [(0, .ok), (0, .ok), (0, .ok), (0, .ok), (0, .ok), (1, .ok), (1, .failed), (2, .ok), (2, .ok),
    (2, .ok), (0, .ok), (0, .ok), (2, .ok), (2, .ok), (0, .ok)]

theorem namespaces_apart_slug :
    ∃ host, runLabels (Host.step { unicode := .ascii }) threeDaemons oneSlug = some host ∧
      host.InUse 0 ⟨"a.1".toList, .executing true⟩ ∧ host.InUse 2 ⟨"b".toList, .makeEnforcer⟩ ∧
      "secopent-a-1".toList ≠ "secopent-b".toList ∧
      "secopent-netns-a-1".toList ∈ host.containers := by
  have hdaemons : ((runLabels (Host.step { unicode := .ascii }) threeDaemons oneSlug).map fun host =>
      (host.daemons[0]?, host.daemons[2]?)) =
      some (some ⟨"a.1".toList, .executing true⟩, some ⟨"b".toList, .makeEnforcer⟩) := by
    decide +kernel
  obtain ⟨host, hrun, hat⟩ := Option.map_eq_some_iff.mp hdaemons
  obtain ⟨hfirst, hlast⟩ := Prod.mk.inj hat
  obtain ⟨hapart, hthere, -⟩ :=
    namespaces_apart (Reaches.of_runLabels hrun (runMeets_of_forall fun _ _ _ => trivial))
  refine ⟨host, hrun, ⟨hfirst, rfl⟩, ⟨hlast, rfl⟩, ?_, ?_⟩
  · exact (hapart 0 2 _ _ ⟨hfirst, rfl⟩ ⟨hlast, rfl⟩ (by simp)).1
  · exact (hthere 0 _ ⟨hfirst, rfl⟩).2 rfl

/-- **Names are left behind exactly if a step was not orderly**: once all daemons have ended, the
namespaces are those that were there before if no addition failed late, no deletion failed and no handle
was dropped, and otherwise there is another one. -/
theorem left_behind_iff {isolator : NetnsIsolator} {namespaces containers : Finset Str}
    {capability : Option Bool} {ids : List Str} {labels : List (ℕ × CommandOutcome)} {host : Host}
    (hrun : runLabels (Host.step isolator) (Host.start namespaces containers capability ids) labels =
      some host)
    (hended : ∀ daemon ∈ host.daemons, daemon.phase = .ended) :
    host.namespaces = namespaces ↔ runMeets (Host.step isolator) Host.Orderly
      (Host.start namespaces containers capability ids) labels := by
  have hnone : ∀ i, host.held isolator i = none := by
    intro i
    rw [Host.held]
    cases hdaemon : host.daemons[i]? with
    | none => rfl
    | some daemon =>
      rw [Option.bind_some, Daemon.held, hended daemon (List.mem_of_getElem? hdaemon)]
      rfl
  have hidle : host.namespaces = namespaces ↔ host.idle isolator = {name | name ∈ namespaces} := by
    rw [Finset.ext_iff, Set.ext_iff]
    refine forall_congr' fun name => ?_
    have hall : name ∈ host.idle isolator ↔ name ∈ host.namespaces := by
      refine ⟨And.left, fun hname => ⟨hname, fun i => ?_⟩⟩
      rw [hnone]
      exact (Option.some_ne_none name).symm
    rw [hall]
    exact Iff.rfl
  -- What is idle grows by the steps that are not orderly, and by no others.
  rw [hidle, @runMeets_exact _ _ (Host.step isolator) Host.Orderly _ _ labels
    (fun host => host.idle isolator = {name | name ∈ namespaces})
    (fun host => Host.Consistent isolator host ∧ {name | name ∈ namespaces} ⊆ host.idle isolator)
    ?hinv ?hexact ⟨Host.consistent_start, Host.idle_start.symm.subset⟩ hrun]
  · exact and_iff_right Host.idle_start
  case hinv =>
    rintro before label after ⟨hbefore, hsubset⟩ hstep
    exact ⟨hbefore.step hstep, hsubset.trans (Host.idle_mono_step hbefore.exclusive hstep)⟩
  case hexact =>
    rintro before label after ⟨hbefore, hsubset⟩ hstep
    rcases Host.idle_step hbefore.exclusive hstep with ⟨horderly, hsame⟩ | ⟨hnot, name, hnew, hinsert⟩
    · rw [hsame]
      exact (and_iff_left horderly).symm
    · refine ⟨fun heq => ?_, fun h => absurd h.2 hnot⟩
      have hname : name ∈ after.idle isolator := by
        rw [hinsert]
        exact Set.mem_insert name _
      rw [heq] at hname
      exact absurd (hsubset hname) hnew

/-- The enforcer is refused for the handle of the first daemon, and `ip netns del` fails late. -/
def droppedHandle : List (ℕ × CommandOutcome) :=
  [(0, .ok), (0, .ok), (0, .ok), (0, .ok), (0, .ok), (0, .ok), (0, .ok), (0, .failed), (0, .ok),
    (1, .ok), (1, .failed), (1, .ok), (2, .ok), (2, .ok), (2, .ok), (2, .ok), (2, .ok), (2, .ok),
    (2, .ok), (2, .ok), (2, .failedLate)]

/-- The namespace of the dropped handle is left, and that of the last daemon is not. -/
theorem left_behind_dropped :
    ∃ host, runLabels (Host.step { unicode := .ascii }) threeDaemons droppedHandle = some host ∧
      host.namespaces ≠ ∅ := by
  have hphases : ((runLabels (Host.step { unicode := .ascii }) threeDaemons droppedHandle).map fun host =>
      host.daemons.map Daemon.phase) = some [.ended, .ended, .ended] := by
    decide +kernel
  obtain ⟨host, hrun, hended⟩ := Option.map_eq_some_iff.mp hphases
  refine ⟨host, hrun, fun hnone => ?_⟩
  have hall : ∀ daemon ∈ host.daemons, daemon.phase = .ended := by
    intro daemon hdaemon
    have hmem : daemon.phase ∈ host.daemons.map Daemon.phase := List.mem_map_of_mem hdaemon
    rw [hended] at hmem
    simpa using hmem
  exact absurd ((left_behind_iff hrun hall).mp hnone) (by decide +kernel)

end SecOpent
