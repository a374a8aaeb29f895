import SecOpent.Findings.ChainTasks
import SecOpent.ReasoningLoop.Actions

/-!
# The chain bridge

`application/reasoning_loop/chain_bridge.py`: the pending links of the chains of the engine, as
hypotheses for the loop. The engine mints the ids of its chains and links anew at each call, so the
bridge gives each link of a template an id of its own, and remembers in a store which ids it has shown
and which of them were evidenced since.

## Main definitions

* `HypothesesStore`: `InMemoryHypothesesStore`, with `record` and `markProgress`
* `canonicalId`: `_canonical_id`
* `ChainBridge.sync`, `ChainBridge.markPendingProgress`
* `ChainBridge.run`: a list of calls, with what each one answers
-/

namespace SecOpent

open Python

/-! ## The store -/

/-- `HypothesisRecord`. -/
structure HypothesisRecord where
  hypothesisId : String
  chainId : String
  linkIndex : ℕ
  requiredCwe : List String
  progressed : Bool := false

/-- `HypothesisRecord.with_progress`. -/
def HypothesisRecord.withProgress (record : HypothesisRecord) : HypothesisRecord :=
  { record with progressed := true }

/-- `InMemoryHypothesesStore`. -/
abbrev HypothesesStore := Dict String HypothesisRecord

namespace HypothesesStore

/-- `record`: the first-seen identity is kept. -/
def record (store : HypothesesStore) (new : HypothesisRecord) : HypothesesStore :=
  match store.get? new.hypothesisId with
  | none => store.set new.hypothesisId new
  | some _ => store

/-- `mark_progress`. -/
def markProgress (store : HypothesesStore) (hypothesisId : String) : HypothesesStore :=
  match store.get? hypothesisId with
  | some existing =>
    if existing.progressed then store else store.set hypothesisId existing.withProgress
  | none => store

/-- `record is not None and record.progressed`. -/
def progressed (store : HypothesesStore) (hypothesisId : String) : Bool :=
  (store.get? hypothesisId).any HypothesisRecord.progressed

end HypothesesStore

/-! ## Hypotheses -/

/-- `ChainBridge._canonical_id`. -/
def canonicalId (H : Sha256) (templateId : String) (linkIndex : ℕ) (requiredCwe : List String) :
    String :=
  let key := templateId ++ ":" ++ toString linkIndex ++ ":" ++
    String.intercalate "," (sortedTexts requiredCwe)
  "hyp-" ++ String.ofList ((H.hexdigest key.toList).take 12)

/-- The description of `_to_hypothesis`. -/
def evidenceText (requiredCwe : List String) (assetHint : String) : String :=
  let cweLabel := if requiredCwe.isEmpty then "evidence" else String.intercalate "/" requiredCwe
  let asset := if assetHint == "" then "the target asset" else assetHint
  "confirm '" ++ cweLabel ++ "' evidence on " ++ asset

/-- `ChainBridge._to_hypothesis`. -/
def toHypothesis (hypothesisId : String) (task : PendingVerificationTask) : PendingHypothesis where
  hypothesisId := hypothesisId
  description := evidenceText task.requiredCwe task.assetHint
  neededCwe := task.requiredCwe

/-! ## The bridge -/

/-- What `sync` keeps in its loops: the tasks not taken yet, the store and the results. -/
structure SyncState where
  tasks : List PendingVerificationTask
  store : HypothesesStore
  results : List PendingHypothesis := []

namespace ChainBridge

variable (H : Sha256) (engine : ChainEngine)

/-- The inner loop of `sync`, over the links of a chain: it is left when there is no task. -/
def syncLinks (chain : AttackChain) : List (ChainLink × ℕ) → SyncState → SyncState
  | [], s => s
  | (link, linkIndex) :: links, s =>
    if link.isConfirmed then syncLinks chain links s
    else
      match s.tasks with
      | [] => s
      | task :: tasks =>
        let hypothesisId := canonicalId H chain.templateId linkIndex task.requiredCwe
        if s.store.progressed hypothesisId then syncLinks chain links { s with tasks := tasks }
        else
          syncLinks chain links {
            tasks := tasks
            store := HypothesesStore.record s.store {
              hypothesisId := hypothesisId
              chainId := chain.id
              linkIndex := linkIndex
              requiredCwe := task.requiredCwe }
            results := s.results ++ [toHypothesis hypothesisId task] }

/-- The outer loop of `sync`, over the chains. -/
def syncChains : List AttackChain → SyncState → SyncState
  | [], s => s
  | chain :: chains, s => syncChains chains (syncLinks H chain chain.links.zipIdx s)

/-- `ChainBridge.sync`, with what the provider returns for findings. -/
def sync (uuids : ChainUuids) (findings : List CheckedFinding) (store : HypothesesStore) :
    Except PyError (List PendingHypothesis) × HypothesesStore :=
  let chains := engine.hypothesizeFromFindings uuids findings
  match engine.pendingVerificationTasks chains with
  | .error e => (.error e, store)
  | .ok tasks =>
    let s := syncChains H chains { tasks := tasks, store := store }
    (.ok s.results, s.store)

/-- `ChainBridge.mark_pending_progress`. -/
def markPendingProgress (hypothesisId : String) (store : HypothesesStore) : HypothesesStore :=
  HypothesesStore.markProgress store hypothesisId

/-- A call of the bridge. -/
inductive Call
  | sync (uuids : ChainUuids) (findings : List CheckedFinding)
  | markPendingProgress (hypothesisId : String)

/-- A call that was made: what `sync` answered, or the id that was marked. -/
inductive Event
  | synced (answer : Except PyError (List PendingHypothesis))
  | marked (hypothesisId : String)

/-- One call. -/
def act (store : HypothesesStore) : Call → Event × HypothesesStore
  | .sync uuids findings =>
    let answered := sync H engine uuids findings store
    (.synced answered.1, answered.2)
  | .markPendingProgress hypothesisId =>
    (.marked hypothesisId, markPendingProgress hypothesisId store)

/-- A list of calls of a new bridge: what happened, and the store after it. -/
def run (calls : List Call) : List Event × HypothesesStore :=
  calls.foldl (fun before call =>
    let done := act H engine before.2 call
    (before.1 ++ [done.1], done.2)) ([], Dict.empty)

end ChainBridge

end SecOpent
