import SecOpent.Python.Dict
import SecOpent.Scope.Snapshot

/-!
# Execution permits

`domain/permits/models.py`, `infrastructure/permits/permit_signer.py` and
`infrastructure/safety/permit_revoker.py`: a run is bound to its scope and plan by a signed permit
with a nonce. The revoker knows which nonces are issued, used and revoked; the verifier asks for
the signature, the expiry, the nonces that the audit chain recorded and the worker, and not for the
revoker.

## Main definitions

* `ExecutionPermit`, `PermitSignature`
* `PermitRevoker`: `recordIssued`, `recordUsed`, `revokeUnused`
* `PermitSignature.verify`
-/

namespace SecOpent

open Python

/-- `ExecutionPermit`, without its capabilities and budget, which no check reads. -/
structure ExecutionPermit where
  jobId : String
  workerId : String
  scopeDigest : String
  planDigest : String
  issuedAt : Time
  expiresAt : Time
  nonce : String
  signature : String := ""
  deriving DecidableEq

/-- `PermitSignatureInvalid`, `PermitExpired`, `PermitReplayed` and `PermitWorkerMismatch`. -/
inductive PermitError
  | signatureInvalid | expired | replayed | workerMismatch
  deriving DecidableEq, Repr

/-- Ed25519 with the key of the deployment: the signature of a permit's payload, and whether the
signature of a permit verifies. -/
structure PermitSignature where
  sign : ExecutionPermit → String
  verifies : ExecutionPermit → Bool

/-- `DEFAULT_PERMIT_TTL_SECONDS`, in microseconds. -/
def defaultPermitTtl : Time := 15 * 60 * 1000000

/-- The worker that every permit is bound to. -/
def permitWorker : String := "adapter-executor"

/-- The permit that `_issue_permit` signs. -/
def issuedPermit (signature : PermitSignature) (assessmentId scopeDigest planDigest nonce : String)
    (now : Time) : ExecutionPermit :=
  let permit : ExecutionPermit :=
    { jobId := assessmentId
      workerId := permitWorker
      scopeDigest := scopeDigest
      planDigest := planDigest
      issuedAt := now
      expiresAt := now + defaultPermitTtl
      nonce := nonce }
  { permit with signature := signature.sign permit }

/-- `PermitVerifier.verify`. -/
def PermitSignature.verify (signature : PermitSignature) (permit : ExecutionPermit) (now : Time)
    (usedNonces : List String) (expectedWorker : String) : Except PermitError Unit :=
  if !signature.verifies permit then .error .signatureInvalid
  else if permit.expiresAt ≤ now then .error .expired
  else if permit.nonce ∈ usedNonces then .error .replayed
  else if permit.workerId ≠ expectedWorker then .error .workerMismatch
  else .ok ()

/-- `InMemoryPermitRevoker`: the issued nonces with whether they were used, and the revoked ones. -/
structure PermitRevoker where
  issued : Dict String Bool := .empty
  revoked : List String := []

namespace PermitRevoker

/-- `record_issued(nonce, used=False)`. -/
def recordIssued (revoker : PermitRevoker) (nonce : String) : PermitRevoker :=
  if nonce ∈ revoker.revoked then revoker
  else { revoker with issued := revoker.issued.set nonce false }

/-- `record_used`. -/
def recordUsed (revoker : PermitRevoker) (nonce : String) : PermitRevoker :=
  match revoker.issued.get? nonce with
  | none => revoker
  | some _ => { revoker with issued := revoker.issued.set nonce true }

/-- `revoke_unused`: the unused nonces are revoked and forgotten. -/
def revokeUnused (revoker : PermitRevoker) : PermitRevoker where
  issued :=
    ⟨revoker.issued.items.filter fun item => item.2,
      (List.filter_sublist.map _).nodup revoker.issued.keys_nodup⟩
  revoked := revoker.revoked ++
    (revoker.issued.items.filter fun item => !item.2).map Prod.fst

end PermitRevoker

end SecOpent
