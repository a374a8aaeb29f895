import Mathlib.Data.List.Infix
import SecOpent.Findings.Correlation
import SecOpent.Matching.Subsequence
import SecOpent.Python.Dict
import SecOpent.Scope.Normalize

/-!
# Attack chains

`domain/findings/attack_chain.py`, `domain/findings/chain_templates.py` and
`application/chain_engine.py`: chains of links over findings. A chain comes from a curated template,
whose links take the validated findings in their order, or from a proposal of a model or a peer, whose
links name findings by id. The values of `uuid.uuid4()` are a parameter.

## Main definitions

* `ChainLink`, `AttackChain`, `AttackChainTemplate`: with what `__post_init__` checks as fields
* `matchTemplate`: `match_template`
* `ChainEngine.hypothesizeFromFindings`, `ChainEngine.hypothesizeFromProposals`: the two sources
* `ChainEngine.pendingVerificationTasks`: a task for each link that is not confirmed
-/

namespace SecOpent

open Python

/-! ## Chains -/

/-- `ChainStatus`. -/
inductive ChainStatus
  | hypothesis | partiallyVerified | confirmed | refuted
  deriving DecidableEq, Repr

/-- `ChainHypothesisSource`. -/
inductive ChainHypothesisSource
  | template | llm | peer
  deriving DecidableEq, Repr

/-- `ChainLink`, without the note on what it waits for. -/
structure ChainLink where
  confirmedFindingId : String := ""
  pendingVerificationKey : String := ""
  bound_or_pending : confirmedFindingId ≠ "" ∨ pendingVerificationKey ≠ ""
  deriving DecidableEq

/-- `ChainLink.is_confirmed`. -/
def ChainLink.isConfirmed (link : ChainLink) : Bool := link.confirmedFindingId != ""

/-- `AttackChain`. -/
structure AttackChain where
  id : String
  templateId : String
  hypothesisSource : ChainHypothesisSource
  links : List ChainLink
  status : ChainStatus := .hypothesis
  severity : Severity := .info
  id_ne : id ≠ ""
  two_links : 2 ≤ links.length

/-- `composite_severity(severities, asset_critical=False)`: Python's `max` keeps the first of equals. -/
def compositeSeverity : List Severity → Severity
  | [] => .info
  | first :: rest => rest.foldl (fun top s => if top.rank < s.rank then s else top) first

/-! ## Templates -/

/-- `ChainLinkSpec`. -/
structure ChainLinkSpec where
  cweAny : List String
  assetPattern : String := ""
  deriving DecidableEq

/-- A CWE in common, and the asset pattern in the asset. -/
def ChainLinkSpec.matches (spec : ChainLinkSpec) (cwe : List String) (asset : String) : Bool :=
  (spec.cweAny.any fun c => decide (c ∈ cwe)) &&
    (spec.assetPattern == "" || decide (spec.assetPattern.toList <:+: asset.toList))

/-- `AttackChainTemplate`, without its name and its tactic. -/
structure AttackChainTemplate where
  id : String
  links : List ChainLinkSpec
  id_ne : id ≠ ""
  two_links : 2 ≤ links.length

/-- The loop of `match_template` over the links from one on, at a position. -/
def matchLinks (findings : List (List String × String)) : List ChainLinkSpec → ℕ → Bool
  | [], _ => true
  | link :: links, position =>
    match Matching.firstIndex (fun f => link.matches f.1 f.2) findings position with
    | some (index, _) => matchLinks findings links (index + 1)
    | none => false

/-- `match_template`. -/
def matchTemplate (template : AttackChainTemplate) (findings : List (List String × String)) : Bool :=
  matchLinks findings template.links 0

/-! ## The engine -/

/-- A `Finding` that passed `__post_init__`. -/
structure CheckedFinding extends Finding where
  id_ne : id ≠ ""
  fingerprint_ne : fingerprint ≠ ""
  title_ne : title ≠ ""
  asset_ne : asset ≠ ""
  deriving DecidableEq

/-- The hex texts that `uuid.uuid4()` gives: for the chain of a number, and for each of its links. -/
structure ChainUuids where
  chain : ℕ → String
  link : ℕ → ℕ → String

/-- `ChainProposal`. -/
structure ChainProposal where
  proposer : String
  templateHint : String
  findingIds : List String
  deriving DecidableEq

/-- `PendingVerificationTask`. -/
structure PendingVerificationTask where
  key : String
  chainId : String
  requiredCwe : List String
  assetHint : String
  deriving DecidableEq

/-- `ChainEngine`. -/
structure ChainEngine where
  templates : List AttackChainTemplate

/-- `ChainLink(confirmed_finding_id=finding.id)`. -/
def ChainLink.bound (finding : CheckedFinding) : ChainLink where
  confirmedFindingId := finding.id
  bound_or_pending := .inl finding.id_ne

/-- `ChainLink(pending_verification_key=f"pv-{uuid.uuid4().hex[:10]}")`. -/
def ChainLink.pending (hex : String) : ChainLink where
  pendingVerificationKey := "pv-" ++ String.ofList (hex.toList.take 10)
  bound_or_pending := .inr (append_ne_empty _ (by decide))

/-- The status that the links of a new chain give it. -/
def chainStatus (links : List ChainLink) : ChainStatus :=
  if links.all ChainLink.isConfirmed then .confirmed
  else if links.head?.any ChainLink.isConfirmed then .partiallyVerified
  else .hypothesis

/-- `[f for f in findings if f.status is FindingStatus.VALIDATED]`. -/
def validatedFindings (findings : List CheckedFinding) : List CheckedFinding :=
  findings.filter fun f => f.status = .validated

/-- `{f.id: f for f in findings}`. -/
def findingsById (findings : List CheckedFinding) : Dict String CheckedFinding :=
  .ofItems (findings.map fun f => (f.id, f))

/-- `_confirmed_severities`. -/
def confirmedSeverities (byId : Dict String CheckedFinding) (links : List ChainLink) : List Severity :=
  links.filterMap fun link =>
    if link.isConfirmed then (byId.get? link.confirmedFindingId).map fun f => f.severity else none

/-- The loop of `_match_template` over the links from one on, at a position: what each is bound to. -/
def bindLinks (findings : List CheckedFinding) : List ChainLinkSpec → ℕ → List (Option CheckedFinding)
  | [], _ => []
  | spec :: specs, position =>
    match Matching.firstIndex (fun f => spec.matches f.cwe f.asset) findings position with
    | some (index, finding) => some finding :: bindLinks findings specs (index + 1)
    | none => none :: bindLinks findings specs position

/-- The links of `_match_template`: a link without a finding waits for its verification. -/
def templateLinks (hex : ℕ → String) (bound : List (Option CheckedFinding)) : List ChainLink :=
  bound.mapIdx fun index finding => finding.elim (.pending (hex index)) .bound

/-- The links of a proposal: a validated finding is bound, any other id waits for its verification. -/
def proposalLinks (hex : ℕ → String) (validatedById : Dict String CheckedFinding)
    (findingIds : List String) : List ChainLink :=
  findingIds.mapIdx fun index findingId =>
    (validatedById.get? findingId).elim (.pending (hex index)) .bound

theorem length_bindLinks (findings : List CheckedFinding) (specs : List ChainLinkSpec) (position : ℕ) :
    (bindLinks findings specs position).length = specs.length := by
  induction specs generalizing position with
  | nil => rfl
  | cons spec specs ih =>
    rw [bindLinks]
    split
    · rw [List.length_cons, List.length_cons, ih]
    · rw [List.length_cons, List.length_cons, ih]

@[simp] theorem length_templateLinks (hex : ℕ → String) (bound : List (Option CheckedFinding)) :
    (templateLinks hex bound).length = bound.length := List.length_mapIdx

@[simp] theorem length_proposalLinks (hex : ℕ → String) (validatedById : Dict String CheckedFinding)
    (findingIds : List String) :
    (proposalLinks hex validatedById findingIds).length = findingIds.length := List.length_mapIdx

namespace ChainEngine

/-- `ChainEngine._match_template`, for the template of a number: nothing if no link is bound. -/
def matchTemplate (uuids : ChainUuids) (number : ℕ) (template : AttackChainTemplate)
    (findings : List CheckedFinding) : Option AttackChain :=
  let bound := bindLinks findings template.links 0
  let links := templateLinks (uuids.link number) bound
  if bound.any Option.isSome then
    some {
      id := "chain-" ++ (template.id ++ "-" ++ String.ofList ((uuids.chain number).toList.take 8))
      templateId := template.id
      hypothesisSource := .template
      links := links
      status := chainStatus links
      severity := compositeSeverity (confirmedSeverities (findingsById findings) links)
      id_ne := append_ne_empty _ (by decide)
      two_links := by
        rw [length_templateLinks, length_bindLinks]
        exact template.two_links }
  else none

/-- `ChainEngine.hypothesize_from_findings`. -/
def hypothesizeFromFindings (uuids : ChainUuids) (engine : ChainEngine)
    (findings : List CheckedFinding) : List AttackChain :=
  engine.templates.zipIdx.filterMap fun entry =>
    matchTemplate uuids entry.2 entry.1 (validatedFindings findings)

/-- The chain of the proposal of a number, in `hypothesize_from_proposals`: nothing for less than two
links. -/
def chainOfProposal (uuids : ChainUuids) (number : ℕ) (validatedById : Dict String CheckedFinding)
    (proposal : ChainProposal) : Option AttackChain :=
  let links := proposalLinks (uuids.link number) validatedById proposal.findingIds
  if hlinks : links.length < 2 then none
  else
    some {
      id := "chain-" ++ String.ofList ((uuids.chain number).toList.take 12)
      templateId := proposal.templateHint
      hypothesisSource :=
        if "peer:".toList.isPrefixOf proposal.proposer.toList then .peer else .llm
      links := links
      status := chainStatus links
      severity := compositeSeverity (confirmedSeverities validatedById links)
      id_ne := append_ne_empty _ (by decide)
      two_links := Nat.not_lt.mp hlinks }

/-- `ChainEngine.hypothesize_from_proposals`. -/
def hypothesizeFromProposals (uuids : ChainUuids) (proposals : List ChainProposal)
    (findings : List CheckedFinding) : List AttackChain :=
  proposals.zipIdx.filterMap fun entry =>
    chainOfProposal uuids entry.2 (findingsById (validatedFindings findings)) entry.1

/-- The task of a link with its specification, if it is not confirmed. -/
def taskOf (chain : AttackChain) (link : ChainLink) (spec : ChainLinkSpec) :
    Option PendingVerificationTask :=
  if link.isConfirmed then none
  else some {
    key := link.pendingVerificationKey
    chainId := chain.id
    requiredCwe := spec.cweAny
    assetHint := spec.assetPattern }

/-- The template that `_tasks_for` reads the specifications of a chain from. -/
def templateFor (engine : ChainEngine) (templateId : String) : Option AttackChainTemplate :=
  engine.templates.find? fun template => template.id = templateId

/-- `ChainEngine._tasks_for`: `zip(..., strict=True)` raises unless the lengths are equal. -/
def tasksFor (engine : ChainEngine) (chain : AttackChain) :
    Except PyError (List PendingVerificationTask) :=
  match engine.templateFor chain.templateId with
  | none => .ok []
  | some template =>
    if chain.links.length = template.links.length then
      .ok ((chain.links.zip template.links).filterMap fun pair => taskOf chain pair.1 pair.2)
    else .error .valueError

/-- `ChainEngine.pending_verification_tasks`. -/
def pendingVerificationTasks (engine : ChainEngine) :
    List AttackChain → Except PyError (List PendingVerificationTask)
  | [] => .ok []
  | chain :: chains => do
    let tasks ← engine.tasksFor chain
    let rest ← engine.pendingVerificationTasks chains
    return tasks ++ rest

end ChainEngine

end SecOpent
