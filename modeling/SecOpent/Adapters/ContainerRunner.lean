import SecOpent.Python.Traversal
import SecOpent.ReasoningLoop.PortAgreement
import SecOpent.Scope.AccountExclusion

/-!
# The scope gate of the adapter runner

`infrastructure/adapters/base.py`: before the container of a tool is started, each target is put to the
policy engine with the first port of the options, or to the accounts of the scope. The whole list of
ports goes to the tool, and a list that is empty or absent is put to the engine as port 0.

## Main definitions

* `AdapterManifest`, `AdapterInput`, `AdapterRunner.run`
* `TargetPasses`: the scope check of a target, without its port
* `StartsAsScoped`: the container is started exactly if the targets and the ports are in scope
* `PortsAgree`, `RefusedCleanly`: when it is

## Main results

* `enforceTarget_eq_ok_iff`, `enforceTarget_python_iff`: what the gate does with one target
* `starts_as_scoped_iff`
-/

namespace SecOpent

open Python

/-- `CoverageDomain`. -/
inductive CoverageDomain
  | asset | web | network | cloud
  deriving DecidableEq, Repr

/-- `AdapterManifest`, with the fields that the gate and the container read. -/
structure AdapterManifest where
  upstreamDigest : String
  riskClass : RiskClass
  coverageDomain : List CoverageDomain
  permissions : List String := []

/-- `AdapterInput`: its targets, and the `ports` of its options when there is such a sequence. -/
structure AdapterInput where
  targets : List Str
  ports : Option (List ℤ) := none
  targets_nonempty : targets ≠ []

/-- What the runner raises before the container is started. -/
inductive AdapterError
  | scopeDenied (message : Str)
  | python (error : PyError)
  deriving DecidableEq

/-- One start of a container: the command line, and the targets and ports of `input.json`. -/
structure ContainerStart where
  command : List String
  targets : List Str
  ports : Option (List ℤ)
  deriving DecidableEq

/-- `_SECURITY_FLAGS`. -/
def securityFlags : List String :=
  ["--user=nonroot", "--cap-drop=ALL", "--read-only", "--network=scoped-egress"]

/-- `approved_risks` of `_enforce_scope`. -/
def runnerRisks : Finset RiskClass := {.passive, .low, .active, .intrusive}

/-- `capability` of `_enforce_scope`. -/
def AdapterManifest.capability (manifest : AdapterManifest) : String :=
  manifest.permissions.head?.getD "passive"

/-- `_extract_ports`. -/
def extractPorts (input : AdapterInput) : List ℤ := input.ports.getD []

/-- `port` of `_enforce_scope`. -/
def gatePort (ports : List ℤ) : ℤ := ports.head?.getD 0

/-- The message of a denial. -/
def deniedMessage (target : Str) (reason : String) : Str :=
  "scope denied for target=".toList ++ target ++ " reason=".toList ++ reason.toList

variable (U : Unicode) (manifest : AdapterManifest) (scope : ScopeSnapshot)

/-- `_is_cloud_target`. -/
def isCloudTarget (target : Str) : Bool :=
  .cloud ∈ manifest.coverageDomain && (normalizeCloudAccount U target).toBool

/-- `_enforce_cloud_target`. -/
def enforceCloudTarget (target : Str) : Except AdapterError Unit :=
  if manifest.riskClass = .destructive then
    .error (.scopeDenied (deniedMessage target "DESTRUCTIVE_ACTION_DENIED"))
  else
    match scope.includesCloudAccount U target with
    | .error e => .error (.python e)
    | .ok false => .error (.scopeDenied (deniedMessage target "SCOPE_DENIED"))
    | .ok true =>
      if manifest.riskClass ∉ runnerRisks then
        .error (.scopeDenied (deniedMessage target "RISK_NOT_APPROVED"))
      else if manifest.riskClass ∈ [RiskClass.active, .intrusive] ∧
          manifest.capability ∉ manifest.permissions.toFinset then
        .error (.scopeDenied (deniedMessage target "CAPABILITY_NOT_APPROVED"))
      else .ok ()

/-- The request of `_enforce_scope`. -/
def targetRequest (ports : List ℤ) (target : Str) : ActionRequest where
  target := target
  port := .int (gatePort ports)
  risk := manifest.riskClass
  capability := manifest.capability

/-- The body of the loop of `_enforce_scope`. -/
def enforceTarget (ports : List ℤ) (target : Str) : Except AdapterError Unit :=
  if isCloudTarget U manifest target then enforceCloudTarget U manifest scope target
  else
    match evaluate U (targetRequest manifest ports target) scope .scopeAutopilot runnerRisks
        manifest.permissions.toFinset with
    | .error e => .error (.python e)
    | .ok decision =>
      if decision.allowed then .ok ()
      else .error (.scopeDenied (deniedMessage target decision.reason))

/-- `_enforce_scope`. -/
def enforceScope (input : AdapterInput) : Except AdapterError Unit :=
  input.targets.forM (enforceTarget U manifest scope (extractPorts input))

/-- `AdapterRunner.run`, up to the start of the container. -/
def AdapterRunner.run (input : AdapterInput) : Except AdapterError ContainerStart := do
  enforceScope U manifest scope input
  pure
    { command := securityFlags ++
        [manifest.upstreamDigest, "--input=/in/input.json", "--output=/out"]
      targets := input.targets
      ports := input.ports }

/-! ## What starts a container -/

/-- The risk of the adapter is not destructive, and its capability is permitted. -/
structure RiskPasses (manifest : AdapterManifest) : Prop where
  risk : manifest.riskClass ≠ .destructive
  capability : manifest.riskClass ∈ [RiskClass.active, .intrusive] →
    manifest.capability ∈ manifest.permissions

/-- The scope check of a target, without a port. -/
structure TargetPasses (target : Str) : Prop where
  risk : RiskPasses manifest
  included : if isCloudTarget U manifest target then scope.includesCloudAccount U target = .ok true
    else scope.includesUrl U target = .ok true

/-- The container is started exactly if every target passes the scope check and every requested port is
a port of the scope; otherwise the run is rejected by policy. -/
def StartsAsScoped (input : AdapterInput) : Prop :=
  ((∃ start, AdapterRunner.run U manifest scope input = .ok start) ↔
      (∀ target ∈ input.targets, TargetPasses U manifest scope target) ∧
        ∀ port ∈ extractPorts input, port ∈ scope.ports) ∧
    ((∀ start, AdapterRunner.run U manifest scope input ≠ .ok start) →
      ∃ message, AdapterRunner.run U manifest scope input = .error (.scopeDenied message))

/-- The first port stands for all of them, for the network targets; no port, for cloud targets. -/
def PortsAgree (input : AdapterInput) : Prop :=
  if ∃ target ∈ input.targets, isCloudTarget U manifest target = false then
    scope.includesPort (gatePort (extractPorts input)) = .ok true ↔
      ∀ port ∈ extractPorts input, port ∈ scope.ports
  else ∀ port ∈ extractPorts input, port ∈ scope.ports

/-- A target is admitted by the gate: it passes the scope check, and the first port is in scope. -/
structure AdmitsTarget (ports : List ℤ) (target : Str) : Prop where
  passes : TargetPasses U manifest scope target
  port : isCloudTarget U manifest target = false → scope.includesPort (gatePort ports) = .ok true

/-- Putting a network target to the scope raises nothing: the first port is a number of a port, and if
it is in scope, the target has a URL normal form. -/
def AsksCleanly (ports : List ℤ) (target : Str) : Prop :=
  ∃ included, scope.includesPort (gatePort ports) = .ok included ∧
    (included = true → ∃ answer, scope.includesUrl U target = .ok answer)

/-- The first target that is not admitted is refused, not raised at. -/
def RefusedCleanly (input : AdapterInput) : Prop :=
  ∀ before target after, input.targets = before ++ target :: after →
    (∀ other ∈ before, AdmitsTarget U manifest scope (extractPorts input) other) →
    ¬AdmitsTarget U manifest scope (extractPorts input) target →
    manifest.riskClass = .destructive ∨ isCloudTarget U manifest target = true ∨
      AsksCleanly U scope (extractPorts input) target

section Gate

variable {U : Unicode} {manifest : AdapterManifest} {scope : ScopeSnapshot} {input : AdapterInput}
  {ports : List ℤ} {target : Str}

theorem mem_runnerRisks {risk : RiskClass} : risk ∈ runnerRisks ↔ risk ≠ .destructive := by
  cases risk <;> decide

/-- A cloud target is an account. -/
theorem exists_account (h : isCloudTarget U manifest target = true) :
    ∃ account, normalizeCloudAccount U target = .ok account := by
  have haccount := (Bool.and_eq_true_iff.mp h).2
  cases hnormal : normalizeCloudAccount U target with
  | error e => simp [hnormal, Except.toBool] at haccount
  | ok account => exact ⟨account, rfl⟩

/-- The question about an account is answered. -/
theorem exists_includesCloudAccount {account : Str}
    (h : normalizeCloudAccount U target = .ok account) :
    ∃ included, scope.includesCloudAccount U target = .ok included := by
  rw [ScopeSnapshot.includesCloudAccount, h]
  by_cases hexcluded : scope.cloudAccountExcluded U account = true
  · exact ⟨false, by simp [hexcluded, bind, Except.bind, pure, Except.pure]⟩
  · exact ⟨_, by simp [hexcluded, bind, Except.bind, pure, Except.pure]; rfl⟩

/-- What the gate does with an account: it passes the check, or is denied. -/
theorem enforceCloudTarget_spec (hcloud : isCloudTarget U manifest target = true) :
    (enforceCloudTarget U manifest scope target = .ok () ↔ TargetPasses U manifest scope target) ∧
      ∀ e, enforceCloudTarget U manifest scope target ≠ .error (.python e) := by
  obtain ⟨account, haccount⟩ := exists_account hcloud
  obtain ⟨included, hincluded⟩ : ∃ included, scope.includesCloudAccount U target = .ok included :=
    exists_includesCloudAccount haccount
  have hpasses : TargetPasses U manifest scope target ↔
      RiskPasses manifest ∧ scope.includesCloudAccount U target = .ok true := by
    constructor
    · exact fun h => ⟨h.risk, by simpa [hcloud] using h.included⟩
    · exact fun h => ⟨h.1, by simpa [hcloud] using h.2⟩
  rw [hpasses, hincluded, enforceCloudTarget]
  by_cases hrisk : manifest.riskClass = .destructive
  · simp only [if_pos hrisk]
    exact ⟨iff_of_false (by simp) fun h => h.1.risk hrisk, by simp⟩
  rw [if_neg hrisk]
  cases included with
  | false =>
    simp [hincluded]
  | true =>
    simp only [hincluded, if_neg (not_not.mpr (mem_runnerRisks.mpr hrisk))]
    split
    next hcapability =>
      refine ⟨iff_of_false (by simp) fun h => ?_, by simp⟩
      exact hcapability.2 (List.mem_toFinset.mpr (h.1.capability hcapability.1))
    next hcapability =>
      refine ⟨iff_of_true rfl ⟨⟨hrisk, fun h => ?_⟩, trivial⟩, by simp⟩
      by_contra hmissing
      exact hcapability ⟨h, fun hmem => hmissing (List.mem_toFinset.mp hmem)⟩

/-- What the policy engine raises at. -/
theorem evaluate_eq_error_iff {request : ActionRequest} {port : ℤ} {mode : ExecutionMode}
    {approvedRisks : Finset RiskClass} {approvedCapabilities : Finset String}
    (hport : request.port = .int port) :
    (∃ e, evaluate U request scope mode approvedRisks approvedCapabilities = .error e) ↔
      request.risk ≠ .destructive ∧ ¬∃ included, scope.includesPort port = .ok included ∧
        (included = true → ∃ answer, scope.includesUrl U request.target = .ok answer) := by
  rw [evaluate, hport]
  by_cases hrisk : request.risk = .destructive
  · simp [hrisk, pure, Except.pure]
  rw [if_neg hrisk, PortValue.included]
  rcases hincluded : scope.includesPort port with e | _ | _
  · simp [hrisk, bind, Except.bind]
  · simp [bind, Except.bind, pure, Except.pure]
  · rcases hurl : scope.includesUrl U request.target with e | answer
    · simp [hrisk, bind, Except.bind]
    · cases answer <;> simp [bind, Except.bind, pure, Except.pure]

/-- **What the gate admits.** -/
theorem enforceTarget_eq_ok_iff :
    enforceTarget U manifest scope ports target = .ok () ↔
      AdmitsTarget U manifest scope ports target := by
  rw [enforceTarget]
  split
  next hcloud =>
    rw [(enforceCloudTarget_spec hcloud).1]
    exact ⟨fun h => ⟨h, fun hnot => by simp [hcloud] at hnot⟩, fun h => h.passes⟩
  next hcloud =>
    have hnetwork : isCloudTarget U manifest target = false := Bool.eq_false_iff.mpr hcloud
    have hallowed : (∃ decision, evaluate U (targetRequest manifest ports target) scope .scopeAutopilot
        runnerRisks manifest.permissions.toFinset = .ok decision ∧ decision.allowed = true) ↔ _ :=
      evaluate_allowed_iff
    have hadmits : AdmitsTarget U manifest scope ports target ↔
        (targetRequest manifest ports target).risk ≠ .destructive ∧
          (targetRequest manifest ports target).port.included scope = .ok true ∧
          scope.includesUrl U target = .ok true ∧ manifest.riskClass ∈ runnerRisks ∧
          (manifest.riskClass ∈ [RiskClass.active, .intrusive] →
            manifest.capability ∈ manifest.permissions.toFinset) := by
      constructor
      · intro h
        exact ⟨h.passes.risk.risk, h.port hnetwork, by simpa [hnetwork] using h.passes.included,
          mem_runnerRisks.mpr h.passes.risk.risk,
          fun hrisk => List.mem_toFinset.mpr (h.passes.risk.capability hrisk)⟩
      · rintro ⟨hrisk, hport, hurl, -, hcapability⟩
        exact ⟨⟨⟨hrisk, fun h => List.mem_toFinset.mp (hcapability h)⟩, by simpa [hnetwork] using hurl⟩,
          fun _ => hport⟩
    rw [hadmits]
    refine Iff.trans ?_ hallowed
    cases hdecision : evaluate U (targetRequest manifest ports target) scope .scopeAutopilot
      runnerRisks manifest.permissions.toFinset with
    | error e => simp
    | ok decision => cases hvalue : decision.allowed <;> simp [hvalue]

/-- **What the gate raises at**, other than by a denial. -/
theorem enforceTarget_python_iff :
    (∃ e, enforceTarget U manifest scope ports target = .error (.python e)) ↔
      ¬(manifest.riskClass = .destructive ∨ isCloudTarget U manifest target = true ∨
        AsksCleanly U scope ports target) := by
  rw [enforceTarget]
  split
  next hcloud =>
    refine iff_of_false ?_ (not_not.mpr (.inr (.inl hcloud)))
    rintro ⟨e, he⟩
    exact (enforceCloudTarget_spec hcloud).2 e he
  next hcloud =>
    have hport : (targetRequest manifest ports target).port = .int (gatePort ports) := rfl
    have herror : (∃ e, evaluate U (targetRequest manifest ports target) scope .scopeAutopilot
        runnerRisks manifest.permissions.toFinset = .error e) ↔ _ := evaluate_eq_error_iff hport
    have hasks : ¬(manifest.riskClass = .destructive ∨ isCloudTarget U manifest target = true ∨
        AsksCleanly U scope ports target) ↔
        manifest.riskClass ≠ .destructive ∧ ¬AsksCleanly U scope ports target := by
      simp [hcloud]
    rw [hasks]
    refine Iff.trans ?_ herror
    cases hdecision : evaluate U (targetRequest manifest ports target) scope .scopeAutopilot
      runnerRisks manifest.permissions.toFinset with
    | error e => simp
    | ok decision => cases hvalue : decision.allowed <;> simp [hvalue]

/-- A container is started when the gate admits every target. -/
theorem started_iff : (∃ start, AdapterRunner.run U manifest scope input = .ok start) ↔
    ∀ target ∈ input.targets, AdmitsTarget U manifest scope (extractPorts input) target := by
  have hgate : (∃ start, AdapterRunner.run U manifest scope input = .ok start) ↔
      enforceScope U manifest scope input = .ok () := by
    rw [AdapterRunner.run]
    cases enforceScope U manifest scope input with
    | error e => simp [bind, Except.bind]
    | ok _ => simp [bind, Except.bind, pure, Except.pure]
  rw [hgate, enforceScope, forM_eq_ok_iff]
  simp only [enforceTarget_eq_ok_iff]

/-- A run that raises anything but a denial. -/
theorem run_python_iff : (∃ e, AdapterRunner.run U manifest scope input = .error (.python e)) ↔
    ¬RefusedCleanly U manifest scope input := by
  have hgate : ∀ e, AdapterRunner.run U manifest scope input = .error e ↔
      enforceScope U manifest scope input = .error e := by
    intro e
    rw [AdapterRunner.run]
    cases enforceScope U manifest scope input with
    | error e => simp [bind, Except.bind]
    | ok _ => simp [bind, Except.bind, pure, Except.pure]
  simp only [hgate, enforceScope, forM_eq_error_iff, enforceTarget_eq_ok_iff]
  constructor
  · rintro ⟨e, before, target, after, htargets, hbefore, he⟩ hclean
    have hraises := enforceTarget_python_iff.mp ⟨e, he⟩
    refine hraises (hclean before target after htargets hbefore fun hadmits => ?_)
    rw [enforceTarget_eq_ok_iff.mpr hadmits] at he
    cases he
  · intro hnot
    simp only [RefusedCleanly, not_forall] at hnot
    obtain ⟨before, target, after, htargets, hbefore, -, hraises⟩ := hnot
    obtain ⟨e, he⟩ := enforceTarget_python_iff.mpr hraises
    exact ⟨e, before, target, after, htargets, hbefore, he⟩

end Gate

/-- **When the container is started as the scope says**: when the first port stands for the whole list,
should every target pass, and the first target that is not admitted is refused. -/
theorem starts_as_scoped_iff (U : Unicode) (manifest : AdapterManifest) (scope : ScopeSnapshot)
    (input : AdapterInput) :
    StartsAsScoped U manifest scope input ↔
      ((∀ target ∈ input.targets, TargetPasses U manifest scope target) →
          PortsAgree U manifest scope input) ∧
        RefusedCleanly U manifest scope input := by
  rw [StartsAsScoped, started_iff]
  refine and_congr ?_ ?_
  · by_cases hpasses : ∀ target ∈ input.targets, TargetPasses U manifest scope target
    swap
    · refine iff_of_true (iff_of_false (fun h => hpasses ?_) fun h => hpasses h.1) fun h =>
        absurd h hpasses
      exact fun target htarget => (h target htarget).passes
    rw [PortsAgree]
    split
    next hnetwork =>
      -- The first port decides.
      obtain ⟨target, htarget, hnotcloud⟩ := hnetwork
      have hadmits : (∀ target ∈ input.targets,
            AdmitsTarget U manifest scope (extractPorts input) target) ↔
          scope.includesPort (gatePort (extractPorts input)) = .ok true :=
        ⟨fun h => (h target htarget).port hnotcloud,
          fun h other hother => ⟨hpasses other hother, fun _ => h⟩⟩
      rw [hadmits]
      exact ⟨fun h _ => h.trans (and_iff_right hpasses),
        fun h => (h hpasses).trans (and_iff_right hpasses).symm⟩
    next hcloud =>
      -- No port is asked about.
      have hadmits : ∀ target ∈ input.targets,
          AdmitsTarget U manifest scope (extractPorts input) target :=
        fun target htarget => ⟨hpasses target htarget, fun h => absurd ⟨target, htarget, h⟩ hcloud⟩
      exact ⟨fun h _ => (h.mp hadmits).2, fun h => iff_of_true hadmits ⟨hpasses, h hpasses⟩⟩
  · constructor
    · intro hdenied
      by_contra hraised
      obtain ⟨e, he⟩ := run_python_iff.mpr hraised
      obtain ⟨message, hmessage⟩ := hdenied fun start hstart => by rw [he] at hstart; cases hstart
      rw [he] at hmessage
      cases hmessage
    · intro hclean hnot
      cases hrun : AdapterRunner.run U manifest scope input with
      | ok start => exact absurd hrun (hnot start)
      | error e =>
        cases e with
        | scopeDenied message => exact ⟨message, rfl⟩
        | python e => exact absurd hclean (run_python_iff.mp ⟨e, hrun⟩)

/-- An adapter that scans a network at low risk. -/
def scannerManifest : AdapterManifest where
  upstreamDigest := "sha256:scanner"
  riskClass := .low
  coverageDomain := [.network]
  permissions := ["network.connect"]

/-- A scope of one site on port 443. -/
def shopPortScope : ScopeSnapshot where
  id := "scope"
  projectId := "project"
  includeRules := ["https://shop.example/".toList]
  excludeRules := []
  ports := [443]
  limits := .default
  approvedBy := "operator"
  approvedAt := 0
  digest := "digest"

/-- A scan of the site at a port of the scope and at another one. -/
def secondPortInput : AdapterInput where
  targets := ["https://shop.example/".toList]
  ports := some [443, 22]
  targets_nonempty := by decide

/-- The second port is never asked about, and goes to the tool. -/
theorem second_port_scanned :
    AdapterRunner.run .ascii scannerManifest shopPortScope secondPortInput =
        .ok ⟨securityFlags ++ ["sha256:scanner", "--input=/in/input.json", "--output=/out"],
          ["https://shop.example/".toList], some [443, 22]⟩ ∧
      (22 : ℤ) ∉ shopPortScope.ports ∧
      ¬StartsAsScoped .ascii scannerManifest shopPortScope secondPortInput := by
  have hstarted : AdapterRunner.run .ascii scannerManifest shopPortScope secondPortInput =
      .ok ⟨securityFlags ++ ["sha256:scanner", "--input=/in/input.json", "--output=/out"],
        ["https://shop.example/".toList], some [443, 22]⟩ := by decide +kernel
  refine ⟨hstarted, by decide, fun h => ?_⟩
  obtain ⟨-, hports⟩ := h.1.mp ⟨_, hstarted⟩
  exact absurd (hports 22 (by decide)) (by decide)

end SecOpent
