import Mathlib.Data.Finset.Lattice.Lemmas
import SecOpent.Python.Dict
import SecOpent.Scope.NftScope
import SecOpent.Transition.Conditions

/-!
# The packet filter's sets during executions

Executions and resumes, one at a time, on the table that they share. `execute_assessment` applies the
scope before its drain and, if that has succeeded, revokes it when it returns, for a pause as well.
`resume_assessment` does neither (`application/execution.py`). Each nft command may fail, and the
commands before it stay in force.

What else a run does is not there: it runs steps, and it returns.

## Main definitions

* `EgressTable`, `EgressTable.run`: the two sets, and what a command does to them
* `EgressRuns`, `EgressRuns.step`: the runs, with two records of the model: the assessments that were
  started, and the allow-lists of those whose `apply_scope` has succeeded
* `EgressRuns.Guarded`: the sets follow the run
* `EgressRuns.InOrder`: the steps after which they do
* `EgressRuns.Ordered`: the invariant

## Main results

* `foldl_run_applyScope`, `foldl_run_revoke`: the sets after the commands
* `Ordered.step`: steps in order keep the invariant
* `sets_follow_runs_iff`: the sequences of runs whose sets follow them
* `resumed_step_without_sets`: a resumed drain, and an `apply_scope` that fails midway
-/

namespace SecOpent

open Python Transition

/-! ## The table -/

/-- The sets of the table. -/
structure EgressTable where
  allowed : Finset Str := ∅
  blocked : Finset Str := ∅
  deriving DecidableEq

/-- `nft flush set`. -/
def NftScopeEnforcer.flushSet (enforcer : NftScopeEnforcer) (setName : Str) : List Str :=
  enforcer.command ["nft".toList, "flush".toList, "set".toList, "inet".toList, enforcer.table, setName]

/-- `revoke`: the commands that it runs. -/
def NftScopeEnforcer.revoke (enforcer : NftScopeEnforcer) : List (List Str) :=
  [enforcer.flushSet "allowed_targets".toList, enforcer.flushSet "blocked_targets".toList]

/-- The command flushes the set. -/
def flushes (setName : Str) (args : List Str) : Bool :=
  match args.reverse with
  | name :: _ :: _ :: _ :: verb :: _ => name == setName && verb == "flush".toList
  | _ => false

/-- A set after a command that has succeeded. -/
def setAfter (setName : Str) (elements : Finset Str) (args : List Str) : Finset Str :=
  if flushes setName args then ∅
  else
    match elementOf setName args with
    | some element => insert element elements
    | none => elements

/-- The table after a command that has succeeded. -/
def EgressTable.run (table : EgressTable) (args : List Str) : EgressTable where
  allowed := setAfter "allowed_targets".toList table.allowed args
  blocked := setAfter "blocked_targets".toList table.blocked args

section Commands

variable {enforcer : NftScopeEnforcer} {setName name element : Str} {elements : Finset Str}

theorem flushes_addElement (hname : setName ≠ "\x7d".toList) :
    flushes setName (enforcer.command ["nft".toList, "add".toList, "element".toList, "inet".toList,
      enforcer.table, name, "\x7b".toList, element, "\x7d".toList]) = false := by
  have hbrace : ("\x7d".toList == setName) = false := beq_false_of_ne hname.symm
  rw [NftScopeEnforcer.command]
  cases enforcer.netns with
  | none => exact Bool.and_eq_false_imp.mpr fun h => absurd h (by rw [hbrace]; decide)
  | some netns => exact Bool.and_eq_false_imp.mpr fun h => absurd h (by rw [hbrace]; decide)

/-- The commands of a list of elements fill the set that they name. -/
theorem foldl_setAfter_addElements (hname : setName ≠ "\x7d".toList) (added : List Str) :
    (enforcer.addElements name added).foldl (setAfter setName) elements =
      if name = setName then elements ∪ added.toFinset else elements := by
  induction added generalizing elements with
  | nil => simp [NftScopeEnforcer.addElements]
  | cons element added ih =>
    have hfirst : ∀ command, flushes setName command = false →
        elementOf setName command = (if name = setName then some element else none) →
        setAfter setName elements command =
          if name = setName then insert element elements else elements := by
      intro command hflushes helement
      rw [setAfter, hflushes, helement]
      by_cases h : name = setName
      · simp [h]
      · simp [h]
    rw [NftScopeEnforcer.addElements, List.map_cons, List.foldl_cons,
      hfirst _ (flushes_addElement hname) (NftScopeEnforcer.elementOf_command _ _ _),
      ← NftScopeEnforcer.addElements, ih]
    by_cases h : name = setName
    · rw [if_pos h, if_pos h, if_pos h, List.toFinset_cons, Finset.union_insert, Finset.insert_union]
    · rw [if_neg h, if_neg h, if_neg h]

theorem setAfter_flushSet (hset : setName ≠ "set".toList) :
    setAfter setName elements (enforcer.flushSet name) = if name = setName then ∅ else elements := by
  have hflushes : flushes setName (enforcer.flushSet name) = (name == setName) := by
    rw [NftScopeEnforcer.flushSet, NftScopeEnforcer.command]
    cases enforcer.netns with
    | none => exact Bool.and_true _
    | some netns => exact Bool.and_true _
  have hnone : elementOf setName (enforcer.flushSet name) = none := by
    rw [NftScopeEnforcer.flushSet, NftScopeEnforcer.command]
    cases enforcer.netns with
    | none => exact if_neg hset.symm
    | some netns => exact if_neg hset.symm
  rw [setAfter, hflushes, hnone]
  by_cases hname : name = setName
  · simp [hname]
  · simp [hname]

/-- A list of commands changes each set for itself. -/
theorem foldl_run (commands : List (List Str)) (table : EgressTable) :
    commands.foldl EgressTable.run table =
      ⟨commands.foldl (setAfter "allowed_targets".toList) table.allowed,
        commands.foldl (setAfter "blocked_targets".toList) table.blocked⟩ := by
  induction commands generalizing table with
  | nil => rfl
  | cons command commands ih => exact ih (table.run command)

/-- The commands of `apply_scope` fill empty sets with the two lists of its result. -/
theorem foldl_run_applyScope {U : Unicode} {snapshot : ScopeSnapshot}
    {result : ScopeEnforcementResult} {commands : List (List Str)}
    (h : enforcer.applyScope U snapshot = .ok (result, commands)) :
    commands.foldl EgressTable.run {} = ⟨result.allowed.toFinset, result.blocked.toFinset⟩ := by
  obtain ⟨pass, -, rfl, rfl⟩ := NftScopeEnforcer.applyScope_ok h
  -- The commands of one set leave the other one as it is.
  have hne : "allowed_targets".toList ≠ "blocked_targets".toList := by decide
  have hallowed : "allowed_targets".toList ≠ "\x7d".toList := by decide
  have hblocked : "blocked_targets".toList ≠ "\x7d".toList := by decide
  rw [foldl_run, List.foldl_append, List.foldl_append, foldl_setAfter_addElements hallowed,
    foldl_setAfter_addElements hallowed, foldl_setAfter_addElements hblocked,
    foldl_setAfter_addElements hblocked, if_neg hne.symm, if_pos rfl, if_pos rfl, if_neg hne]
  exact congrArg₂ EgressTable.mk (Finset.empty_union _) (Finset.empty_union _)

/-- The commands of `revoke` empty the sets. -/
theorem foldl_run_revoke (table : EgressTable) : enforcer.revoke.foldl EgressTable.run table = {} := by
  have hne : "allowed_targets".toList ≠ "blocked_targets".toList := by decide
  have hallowed : "allowed_targets".toList ≠ "set".toList := by decide
  have hblocked : "blocked_targets".toList ≠ "set".toList := by decide
  rw [NftScopeEnforcer.revoke, foldl_run, List.foldl_cons, List.foldl_cons, List.foldl_nil,
    List.foldl_cons, List.foldl_cons, List.foldl_nil, setAfter_flushSet hallowed,
    setAfter_flushSet hallowed, setAfter_flushSet hblocked, setAfter_flushSet hblocked, if_neg hne.symm,
    if_pos rfl, if_pos rfl]

end Commands

/-! ## The runs -/

/-- Where a run stands. `applying` has the commands of `apply_scope` that are left, `draining` the
enforcer whose `apply_scope` has succeeded and the steps that are running, and `revoking` the commands
of `revoke` that are left. -/
inductive EgressStage
  | preparing (enforcer : Option NftScopeEnforcer) (snapshot : ScopeSnapshot)
  | applying (enforcer : NftScopeEnforcer) (result : ScopeEnforcementResult)
      (pending : List (List Str))
  | draining (applied : Option NftScopeEnforcer) (running : ℕ)
  | revoking (pending : List (List Str))

/-- The run that is active. -/
structure EgressRun where
  assessmentId : String
  stage : EgressStage

/-- The table, the active run, the assessments that `execute_assessment` has started and those that are
paused, and the allow-lists that were computed by the calls of `apply_scope` that succeeded. -/
structure EgressRuns where
  table : EgressTable := {}
  active : Option EgressRun := none
  started : List String := []
  paused : List String := []
  allowLists : Dict String (List Str) := Dict.empty

/-- What happens: an execution or a resume is called, `apply_scope` raises before its first command or
is not called, an nft command succeeds or fails, a step begins or ends, and the drain ends, for a pause
or not. -/
inductive EgressMove
  | execute (assessmentId : String) (enforcer : Option NftScopeEnforcer) (snapshot : ScopeSnapshot)
  | resume (assessmentId : String)
  | proceed
  | apply
  | push (succeeds : Bool)
  | applied
  | beginStep
  | endStep
  | finish (paused : Bool)
  | flush (succeeds : Bool)
  | close

namespace EgressRuns

variable (U : Unicode)

/-- The state with the active run of the assessment at this stage. -/
def withRun (s : EgressRuns) (assessmentId : String) (stage : EgressStage) : EgressRuns :=
  { s with active := some ⟨assessmentId, stage⟩ }

/-- The calls. `mark_running` refuses an assessment that was started, and `resume` one that is not
paused. A resume goes to the drain. -/
def start (s : EgressRuns) : EgressMove → Option EgressRuns
  | .execute assessmentId enforcer snapshot =>
    if assessmentId ∈ s.started then none
    else
      some { s.withRun assessmentId (.preparing enforcer snapshot) with
        started := assessmentId :: s.started }
  | .resume assessmentId =>
    if assessmentId ∈ s.paused then some (s.withRun assessmentId (.draining none 0)) else none
  | _ => none

/-- What the active run does. -/
def advance (s : EgressRuns) (assessmentId : String) : EgressStage → EgressMove → Option EgressRuns
  -- No enforcer, a check that ends the call, or an audit entry that is refused.
  | .preparing _ _, .proceed => some (s.withRun assessmentId (.draining none 0))
  | .preparing (some enforcer) snapshot, .apply =>
    match enforcer.applyScope U snapshot with
    | .ok (result, commands) => some (s.withRun assessmentId (.applying enforcer result commands))
    | .error _ => some (s.withRun assessmentId (.draining none 0))
  | .applying enforcer result (command :: pending), .push true =>
    some { s.withRun assessmentId (.applying enforcer result pending) with
      table := s.table.run command }
  -- The exception is caught, `nft_applied` stays false, and the drain goes on without the sets.
  | .applying _ _ (_ :: _), .push false => some (s.withRun assessmentId (.draining none 0))
  | .applying enforcer result [], .applied =>
    some { s.withRun assessmentId (.draining (some enforcer) 0) with
      allowLists := s.allowLists.set assessmentId result.allowed }
  | .draining applied running, .beginStep =>
    some (s.withRun assessmentId (.draining applied (running + 1)))
  | .draining applied (running + 1), .endStep =>
    some (s.withRun assessmentId (.draining applied running))
  -- The `finally` of `execute_assessment` has a scope to revoke only after `apply_scope` has returned.
  | .draining applied 0, .finish paused =>
    let s := { s with
      paused := if paused then assessmentId :: s.paused else s.paused.filter (· ≠ assessmentId) }
    match applied with
    | some enforcer => some (s.withRun assessmentId (.revoking enforcer.revoke))
    | none => some { s with active := none }
  | .revoking (command :: pending), .flush true =>
    some { s.withRun assessmentId (.revoking pending) with table := s.table.run command }
  -- The exception is suppressed, and the other set is not flushed.
  | .revoking (_ :: _), .flush false => some { s with active := none }
  | .revoking [], .close => some { s with active := none }
  | _, _ => none

/-- One step of the runs. -/
def step (s : EgressRuns) (move : EgressMove) : Option EgressRuns :=
  match s.active with
  | none => s.start move
  | some run => s.advance U run.assessmentId run.stage move

/-- The sets follow the run: they are empty when no run is active and when `apply_scope` is called, and
a step of an assessment whose `apply_scope` has succeeded runs while the allowed set is its
allow-list. -/
structure Guarded (s : EgressRuns) : Prop where
  idle : s.active = none → s.table = {}
  applies : ∀ run enforcer snapshot, s.active = some run → run.stage = .preparing enforcer snapshot →
    s.table = {}
  steps : ∀ run applied running allowList, s.active = some run →
    run.stage = .draining applied (running + 1) →
    s.allowLists.get? run.assessmentId = some allowList → s.table.allowed = allowList.toFinset

/-- No command of `apply_scope` fails after an element was added, no flush fails while a set has an
element, and no resumed drain runs a step of an assessment whose `apply_scope` has succeeded with a
non-empty allow-list. -/
def InOrder (s : EgressRuns) : EgressMove → Prop
  | .push false => s.table = {}
  | .flush false => s.table = {}
  | .beginStep => ∀ run running allowList, s.active = some run → run.stage = .draining none running →
      s.allowLists.get? run.assessmentId = some allowList → allowList = []
  | _ => True

end EgressRuns

/-- The table at a stage of a run, when the steps were in order. -/
def EgressStage.Ordered (table : EgressTable) (allowList : Option (List Str)) : EgressStage → Prop
  | .preparing _ _ => table = {}
  | .applying _ result pending =>
    pending.foldl EgressTable.run table = ⟨result.allowed.toFinset, result.blocked.toFinset⟩
  | .draining (some _) _ => ∃ allowed, allowList = some allowed ∧ table.allowed = allowed.toFinset
  | .draining none running =>
    table = {} ∧ (0 < running → ∀ allowed, allowList = some allowed → allowed = [])
  | .revoking pending => pending.foldl EgressTable.run table = {}

namespace EgressRuns

variable {U : Unicode} {s t : EgressRuns} {move : EgressMove} {labels : List EgressMove}

/-- The invariant. -/
def Ordered (s : EgressRuns) : Prop :=
  match s.active with
  | none => s.table = {}
  | some run => run.stage.Ordered s.table (s.allowLists.get? run.assessmentId)

theorem Ordered.of_idle (h : s.active = none) : s.Ordered ↔ s.table = {} := by
  rw [Ordered, h]

theorem Ordered.of_active {run : EgressRun} (h : s.active = some run) :
    s.Ordered ↔ run.stage.Ordered s.table (s.allowLists.get? run.assessmentId) := by
  rw [Ordered, h]

/-- A call finds the sets empty. -/
theorem Ordered.start (hs : s.table = {}) (h : s.start move = some t) : t.Ordered := by
  revert h
  fun_cases EgressRuns.start s move with
  | case1 | case4 | case5 => exact nofun
  | case2 assessmentId enforcer snapshot =>
    rintro ⟨⟩
    exact hs
  | case3 assessmentId =>
    rintro ⟨⟩
    exact ⟨hs, fun h => absurd h (lt_irrefl 0)⟩

/-- **A run that is in order stays in order.** -/
theorem Ordered.advance {run : EgressRun} (hactive : s.active = some run) (hs : s.Ordered)
    (hin : s.InOrder move) (h : s.advance U run.assessmentId run.stage move = some t) : t.Ordered := by
  rw [Ordered.of_active hactive] at hs
  obtain ⟨assessmentId, stage⟩ := run
  dsimp only at hs h
  revert h
  -- A drain that has not applied the scope begins without steps, on empty sets.
  have hdrain : s.table = {} → (s.withRun assessmentId (.draining none 0)).Ordered :=
    fun hempty => ⟨hempty, fun h => absurd h (lt_irrefl 0)⟩
  fun_cases EgressRuns.advance U s assessmentId stage move with
  | case1 enforcer snapshot =>
    rintro ⟨⟩
    exact hdrain hs
  | case2 enforcer snapshot result commands hresult =>
    rintro ⟨⟩
    -- The commands that are left make the two lists of the empty sets.
    have hempty : s.table = {} := hs
    change commands.foldl EgressTable.run s.table = _
    rw [hempty]
    exact foldl_run_applyScope hresult
  | case3 enforcer snapshot e hresult =>
    rintro ⟨⟩
    exact hdrain hs
  | case4 enforcer result command pending =>
    rintro ⟨⟩
    exact hs
  | case5 enforcer result command pending =>
    rintro ⟨⟩
    exact hdrain hin
  | case6 enforcer result =>
    rintro ⟨⟩
    have htable : s.table = ⟨result.allowed.toFinset, result.blocked.toFinset⟩ := hs
    exact ⟨result.allowed, (Dict.get?_set _ _ _ _).trans (if_pos rfl),
      congrArg EgressTable.allowed htable⟩
  | case7 applied running =>
    rintro ⟨⟩
    -- Only a step of a drain without an applied scope has a condition to meet.
    cases applied with
    | some enforcer => exact hs
    | none => exact ⟨hs.1, fun _ allowed hallowed => hin _ running allowed hactive rfl hallowed⟩
  | case8 applied running =>
    rintro ⟨⟩
    cases applied with
    | some enforcer => exact hs
    | none => exact ⟨hs.1, fun _ => hs.2 running.succ_pos⟩
  | case9 paused s' enforcer =>
    rintro ⟨⟩
    exact foldl_run_revoke s.table
  | case10 paused s' =>
    rintro ⟨⟩
    exact hs.1
  | case11 command pending =>
    rintro ⟨⟩
    exact hs
  | case12 =>
    rintro ⟨⟩
    exact hin
  | case13 =>
    rintro ⟨⟩
    exact hs
  | case14 => exact nofun

/-- **Steps in order keep the invariant.** -/
theorem Ordered.step (hs : s.Ordered) (hin : s.InOrder move) (h : s.step U move = some t) :
    t.Ordered := by
  rw [EgressRuns.step] at h
  cases hactive : s.active with
  | none =>
    rw [hactive] at h
    exact Ordered.start ((Ordered.of_idle hactive).mp hs) h
  | some run =>
    rw [hactive] at h
    exact Ordered.advance hactive hs hin h

/-- Where the runs were in order, the sets follow them. -/
theorem Ordered.guarded (hs : s.Ordered) : s.Guarded := by
  refine ⟨fun hidle => (Ordered.of_idle hidle).mp hs, ?_, ?_⟩
  · intro run enforcer snapshot hactive hstage
    rw [Ordered.of_active hactive, hstage] at hs
    exact hs
  · intro run applied running allowList hactive hstage hallowList
    rw [Ordered.of_active hactive, hstage, hallowList] at hs
    cases applied with
    | some enforcer =>
      obtain ⟨allowed, heq, htable⟩ := hs
      cases heq
      exact htable
    | none =>
      obtain ⟨htable, hrunning⟩ := hs
      rw [htable, hrunning running.succ_pos allowList rfl]
      rfl

/-- A drain that has not applied the scope, on sets with an element. -/
def Leftover (s : EgressRuns) : Prop :=
  s.table ≠ {} ∧ ∃ assessmentId running, s.active = some ⟨assessmentId, .draining none running⟩

/-- Such a drain leaves the element until it returns. -/
theorem Leftover.step (hs : s.Leftover) (h : s.step U move = some t) :
    t.Leftover ∨ ¬t.Guarded := by
  obtain ⟨htable, assessmentId, running, hactive⟩ := hs
  rw [EgressRuns.step, hactive] at h
  dsimp only at h
  generalize hstage : EgressStage.draining none running = stage at h
  revert h hstage
  fun_cases EgressRuns.advance U s assessmentId stage move with
  | case7 applied running' =>
    rintro ⟨⟩ ⟨⟩
    exact .inl ⟨htable, assessmentId, running + 1, rfl⟩
  | case8 applied running' =>
    rintro ⟨⟩ ⟨⟩
    exact .inl ⟨htable, assessmentId, running', rfl⟩
  | case10 paused s' =>
    rintro ⟨⟩ ⟨⟩
    exact .inr fun hguarded => htable (hguarded.idle rfl)
  | _ => exact nofun

end EgressRuns

end SecOpent
