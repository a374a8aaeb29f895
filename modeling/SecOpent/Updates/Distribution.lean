import SecOpent.Audit.Service
import SecOpent.Python.Effects
import SecOpent.Transition.Histories
import SecOpent.Updates.Manager

/-!
# Publishing and synchronising bundles

The requests of `interfaces/api/routers/updates.py` on `application/bundle_sync.py`,
`application/intel_bundle.py`, `infrastructure/updates/github_bundle_fetcher.py` and
`SqlAlchemyUpdateRepository`. A bundle is activated by publishing it with a key of the server, or by
fetching it from a release. Both verify a signature on the digest of the bundle, write the row, move the
pointer and record an event in the transaction of the request; a request that fails is rolled back as a
whole, with the event of a rejection.

What other packages compute, and what the keys and the intel store answer, are arguments.

## Main definitions

* `parseGithubSource`, `UpdateSetup.fetch`: a release, its assets and its revocations
* `UpdateSetup.sync`, `UpdateSetup.publish`: the two services
* `UpdateServer.handle`: a request, with its transaction
* `replayed`: the pointer and the digests that a list of events leaves
* `UpdateRequest.Vouches`: a request has verified a signature on a row

## Main results

* `parseGithubSource_iff`: which sources name a release
* `UpdateServer.handle_cases`: a request changes nothing in the database, or activates one bundle
* `bundles_replayed`: the database is what its events replay
* `bundles_vouched`: every row was signed, with a tag that was not revoked if it was fetched
-/

namespace SecOpent

open Python Transition

/-! ## Sources -/

/-- Why a request on bundles fails. -/
inductive UpdateError
  /-- `DomainValidationError`. -/
  | validation (message : String)
  /-- `BundleFetchError`. -/
  | fetch (message : String)
  /-- `BundleRevokedError`. -/
  | revoked (message : String)
  /-- `SigningKeyNotFound`. -/
  | keyNotFound
  /-- `HTTPException`. -/
  | http (status : ℕ)
  /-- Any other exception. -/
  | other
  deriving DecidableEq

/-- `GITHUB_SCHEME`. -/
def githubScheme : Str := "github:".toList

/-- The error of a source; `repr` is that of its text. -/
def sourceError (repr : Str → Str) (problem : String) (source : Str) : UpdateError :=
  .fetch (problem ++ " github source: " ++ String.ofList (repr source))

/-- `parse_github_source`. -/
def parseGithubSource (repr : Str → Str) (source : Str) : Except UpdateError (Str × Str × Str) :=
  if startsWith source githubScheme = false then .error (sourceError repr "not a" source)
  else
    let rest := source.drop githubScheme.length
    let path := (rpartition ':' rest).1
    let tag := (rpartition ':' rest).2
    if ':' ∉ rest ∨ tag = [] ∨ '/' ∉ path then .error (sourceError repr "malformed" source)
    else if (partition '/' path).1 = [] ∨ (partition '/' path).2 = [] then
      .error (sourceError repr "malformed" source)
    else .ok ((partition '/' path).1, (partition '/' path).2, tag)

/-- The text of a release. -/
def githubSource (owner repo tag : Str) : Str := githubScheme ++ (owner ++ '/' :: repo) ++ ':' :: tag

/-- **The sources of releases**: the owner has no slash and the tag no colon, and none of the three parts
is empty. -/
theorem parseGithubSource_iff {repr : Str → Str} {source owner repo tag : Str} :
    parseGithubSource repr source = .ok (owner, repo, tag) ↔
      source = githubSource owner repo tag ∧ owner ≠ [] ∧ '/' ∉ owner ∧ repo ≠ [] ∧ tag ≠ [] ∧
        ':' ∉ tag := by
  constructor
  · intro h
    rw [parseGithubSource] at h
    split at h
    next => cases h
    next hscheme =>
      obtain ⟨rest, rfl⟩ : githubScheme <+: source :=
        List.isPrefixOf_iff_prefix.mp (by rwa [Bool.not_eq_false] at hscheme)
      rw [List.drop_left] at h
      dsimp only at h
      split_ifs at h with hmalformed hempty
      obtain ⟨hcolon, htag, hslash⟩ : ':' ∈ rest ∧ (rpartition ':' rest).2 ≠ [] ∧
          '/' ∈ (rpartition ':' rest).1 := by
        simpa only [not_or, not_not] using hmalformed
      obtain ⟨howner, hrepo⟩ := not_or.mp hempty
      obtain ⟨hrest, hnot⟩ := eq_rpartition hcolon
      obtain ⟨before, after, hpath, hbefore⟩ := List.eq_append_cons_of_mem hslash
      rw [hpath, partition_append '/' hbefore] at h howner hrepo
      obtain ⟨rfl, rfl, rfl⟩ : before = owner ∧ after = repo ∧ (rpartition ':' rest).2 = tag := by
        simpa using h
      refine ⟨?_, howner, hbefore, hrepo, htag, hnot⟩
      rw [githubSource, List.append_assoc, ← hpath, ← hrest]
  · rintro ⟨rfl, howner, hslash, hrepo, htag, hcolon⟩
    have hscheme : startsWith (githubSource owner repo tag) githubScheme = true := by
      rw [githubSource, List.append_assoc]
      exact List.isPrefixOf_iff_prefix.mpr (List.prefix_append _ _)
    have hrest : (githubSource owner repo tag).drop githubScheme.length =
        (owner ++ '/' :: repo) ++ ':' :: tag := by
      rw [githubSource, List.append_assoc, List.drop_left]
    rw [parseGithubSource, hscheme, if_neg Bool.noConfusion]
    dsimp only
    rw [hrest, rpartition_append ':' hcolon, partition_append '/' hslash]
    simp [howner, hrepo, htag]

/-! ## Releases -/

/-- `cryptography`: the keys that it loads, and its check of a signature on a text. A PEM file with a key
of another kind loads none. -/
structure Ed25519 where
  Key : Type
  loadPem : List UInt8 → Option Key
  fromPublicBytes : List UInt8 → Option Key
  verify : Key → List UInt8 → String → Bool

/-- Why `json.loads` raises: a `UnicodeDecodeError` or a `JSONDecodeError`, with its text, or another
exception. -/
inductive LoadsError
  | invalid (message : String)
  | other

/-- What the requests are set up with: `json.loads` of decoded bytes, `dict` of a value that is no object,
`b64decode`, and the settings. -/
structure UpdateSetup where
  hash : Sha256
  ed25519 : Ed25519
  repr : Str → Str
  loads : List UInt8 → Except LoadsError Json
  dictOf : Json → Except UpdateError Payload
  b64decode : String → Except UpdateError (List UInt8)
  baseUrl : Str := "https://github.com".toList

/-- The answers of the registry: a status and a content; `none` where `httpx` raises. -/
abbrev Registry := Str → Option (ℕ × List UInt8)

namespace UpdateSetup

variable (setup : UpdateSetup) (registry : Registry)

/-- `_asset_url`. -/
def assetUrl (owner repo tag : Str) (asset : String) : Str :=
  rstrip (· == '/') setup.baseUrl ++ '/' :: (owner ++ '/' :: (repo ++ "/releases/download/".toList ++
    (tag ++ '/' :: asset.toList)))

/-- `_download_asset`. -/
def downloadAsset (owner repo tag : Str) (asset : String) : Except UpdateError (List UInt8) :=
  match registry (setup.assetUrl owner repo tag asset) with
  | none => .error .other
  | some (status, content) =>
    if status = 200 then .ok content
    else .error (.fetch ("failed to fetch " ++ asset ++ " for " ++ String.ofList owner ++ "/" ++
      String.ofList repo ++ "@" ++ String.ofList tag ++ ": HTTP " ++ toString status))

/-- The list of a revocation document names the tag. -/
def Revokes (document : Json) (tag : Str) : Bool :=
  let revoked := match document with
    | .object members => ((Dict.ofItems members).get? "revoked").getD (.list [])
    | document => document
  match revoked with
  | .list items => items.any fun item =>
    match item with
    | .text text => text.toList == tag
    | _ => false
  | _ => false

/-- `_is_revoked`: a list that cannot be fetched or read revokes nothing. -/
def isRevoked (owner repo tag : Str) : Except UpdateError Bool :=
  match setup.downloadAsset registry owner repo tag "revocations.json" with
  | .error (.fetch _) => .ok false
  | .error error => .error error
  | .ok content =>
    match setup.loads content with
    | .error (.invalid _) => .ok false
    | .error .other => .error .other
    | .ok document => .ok (Revokes document tag)

/-- `fetch`. -/
def fetch (source : Str) : Except UpdateError (List UInt8 × List UInt8) := do
  let (owner, repo, tag) ← parseGithubSource setup.repr source
  if ← setup.isRevoked registry owner repo tag then
    .error (.revoked ("bundle " ++ String.ofList (setup.repr tag) ++ " is revoked in " ++
      String.ofList owner ++ "/" ++ String.ofList repo ++ "; refusing to sync"))
  let bundle ← setup.downloadAsset registry owner repo tag "bundle.json"
  let signature ← setup.downloadAsset registry owner repo tag "bundle.json.sig"
  pure (bundle, signature)

/-! ## Bundles and signatures -/

/-- The digest of a bundle. -/
def bundleDigest : BundleDigest := fun bundleId version schemaVersion payload =>
  String.ofList (sha256Tag ++ setup.hash.hexdigest (Json.object
    [("bundle_id", .text bundleId), ("version", .text version), ("schema_version", .text schemaVersion),
      ("payload", .object payload.items)]).dumps)

/-- A member that has to be there. A value that is not a text does not get through the request: `create`
refuses it, the check of the schema does, or the model of the response. -/
def memberText (members : List (String × Json)) (key : String) : Except UpdateError String :=
  match (Dict.ofItems members).get? key with
  | some (.text text) => .ok text
  | _ => .error .other

/-- `dict(doc.get("payload", {}))`. -/
def memberPayload (members : List (String × Json)) : Except UpdateError Payload :=
  match (Dict.ofItems members).get? "payload" with
  | none => .ok .empty
  | some (.object items) => .ok (Dict.ofItems items)
  | some value => setup.dictOf value

/-- `_parse`. -/
def parse (content : List UInt8) : Except UpdateError UpdateBundle :=
  match setup.loads content with
  | .error (.invalid message) => .error (.validation ("bundle bytes are not valid JSON: " ++ message))
  | .error .other => .error .other
  | .ok (.object members) => do
    let bundleId ← memberText members "bundle_id"
    let version ← memberText members "version"
    let schemaVersion ← memberText members "schema_version"
    let payload ← setup.memberPayload members
    (UpdateBundle.create setup.bundleDigest bundleId version schemaVersion payload).mapError .validation
  | .ok _ => .error .other

/-- `-----BEGIN`. -/
def pemStart : List UInt8 := [45, 45, 45, 45, 45, 66, 69, 71, 73, 78]

/-- `Ed25519SignatureVerifier.verify`, of the digest of a bundle. -/
def verify (digest : String) (signature publicKey : List UInt8) : Bool :=
  if signature = [] ∨ publicKey = [] then false
  else
    match
      if pemStart.isPrefixOf publicKey then setup.ed25519.loadPem publicKey
      else setup.ed25519.fromPublicBytes publicKey
    with
    | none => false
    | some key => setup.ed25519.verify key signature digest

end UpdateSetup

/-! ## The database -/

/-- `CoreUpdateBundle`. -/
structure UpdateRow where
  bundleId : String
  version : String
  digest : String
  payload : Payload
  stagedAt : DateTime

/-- What `SqlAlchemyUpdateRepository` and the audit log keep. -/
structure UpdateDb where
  bundles : Table UpdateRow UpdateRow.bundleId := .empty
  active : Option String := none
  audits : List AuditCall := []

/-- What a request writes: to the database, and to the `BundleSignatureState` of the server. -/
inductive UpdateWrite
  | addBundle (row : UpdateRow)
  | setActive (bundleId : String)
  | audit (call : AuditCall)
  | signature (bundleId : String) (valid : Bool)

/-- A write to the database. -/
def UpdateDb.apply (db : UpdateDb) : UpdateWrite → UpdateDb
  | .addBundle row => { db with bundles := db.bundles.put row }
  | .setActive bundleId => { db with active := some bundleId }
  | .audit call => { db with audits := db.audits ++ [call] }
  | .signature _ _ => db

/-- The writes of a transaction. -/
def UpdateDb.written (db : UpdateDb) (writes : List UpdateWrite) : UpdateDb := writes.foldl UpdateDb.apply db

/-- The row of a bundle. -/
def UpdateBundle.updateRow (bundle : UpdateBundle) (now : DateTime) : UpdateRow where
  bundleId := bundle.bundleId
  version := bundle.version
  digest := bundle.digest
  payload := bundle.payload
  stagedAt := now

/-- An event on a bundle. -/
def UpdateBundle.event (bundle : UpdateBundle) (actor action : String) (payload : List (String × Json))
    (now : DateTime) : AuditCall :=
  ⟨actor, action, "update_bundle", bundle.bundleId, payload, now⟩

/-! ## The services -/

/-- A call of a service. -/
abbrev UpdateCall (α : Type) := Acting UpdateError UpdateWrite α

/-- The row, the pointer and the event of a bundle. -/
def UpdateBundle.activate (bundle : UpdateBundle) (call : AuditCall) (now : DateTime) : UpdateCall Unit := do
  .effect (.addBundle (bundle.updateRow now))
  .effect (.setActive bundle.bundleId)
  .effect (.audit call)

/-- The event of a rejection, and the exception. -/
def UpdateBundle.refuse {α : Type} (bundle : UpdateBundle) (actor : String)
    (payload : List (String × Json)) (message : String) (now : DateTime) : UpdateCall α := do
  .effect (.audit (bundle.event actor "update.rejected" payload now))
  .raise (.validation message)

/-- `DEFAULT_SCHEMA`. -/
def defaultSchema : String := "secopent-intel/v1"

/-- The payload of `update.synced`. -/
def syncedPayloadOf (bundle : UpdateBundle) (source : Str) (previous : Option String) :
    List (String × Json) :=
  [("version", .text bundle.version), ("schema_version", .text bundle.schemaVersion),
    ("source", .text (String.ofList source)), ("digest", .text bundle.digest),
    ("previous_bundle_id", (previous.map Json.text).getD .null)]

/-- The payload of `update.published`. -/
def publishedPayload (bundle : UpdateBundle) : List (String × Json) :=
  [("version", .text bundle.version), ("schema_version", .text bundle.schemaVersion),
    ("digest", .text bundle.digest)]

namespace UpdateSetup

variable (setup : UpdateSetup)

/-- `BundleSyncService.sync`. -/
def sync (registry : Registry) (publicKey : List UInt8) (db : UpdateDb) (source : Str) (now : DateTime) :
    UpdateCall SyncResult := do
  let (content, signature) ← .ofExcept (setup.fetch registry source)
  let bundle ← .ofExcept (setup.parse content)
  let previous := db.active
  if setup.verify bundle.digest signature publicKey = false then
    bundle.refuse "bundle-sync"
      [("reason", .text "signature_invalid"), ("version", .text bundle.version),
        ("source", .text (String.ofList source))]
      ("signature verification failed for bundle " ++ bundle.bundleId) now
  else if bundle.schemaVersion ≠ defaultSchema then
    bundle.refuse "bundle-sync"
      [("reason", .text "schema_incompatible"), ("bundle_schema", .text bundle.schemaVersion),
        ("expected_schema", .text defaultSchema)]
      ("schema version mismatch: bundle=" ++ bundle.schemaVersion ++ " expected=" ++ defaultSchema) now
  else
    bundle.activate
      (bundle.event "bundle-sync" "update.synced" (syncedPayloadOf bundle source previous) now) now
    pure ⟨bundle.bundleId, bundle.version, bundle.digest, previous⟩

/-- `IntelBundlePublisher.publish`; the signer returns the text of a signature. -/
def publish (signer : String → Except UpdateError String) (publicKey bundleId version : String)
    (payload : Payload) (now : DateTime) : UpdateCall UpdateBundle := do
  let bundle ← .ofExcept
    ((UpdateBundle.create setup.bundleDigest bundleId version defaultSchema payload).mapError .validation)
  let signed ← .ofExcept (signer bundle.digest)
  let signature ← .ofExcept (setup.b64decode signed)
  let publicKey ← .ofExcept (setup.b64decode publicKey)
  let valid := setup.verify bundle.digest signature publicKey
  .effect (.signature bundle.bundleId valid)
  if valid = false then
    bundle.refuse "intel-publisher"
      [("reason", .text "signature_invalid"), ("version", .text bundle.version)]
      ("intel bundle signature verification failed: " ++ bundle.bundleId) now
  else
    bundle.activate
      (bundle.event "intel-publisher" "update.published" (publishedPayload bundle) now) now
    pure bundle

end UpdateSetup

/-! ## Requests -/

/-- What the signing keys answer; the public key is a text. -/
structure KeyAnswers where
  defaultKeyId : Option String
  signerFor : String → Except UpdateError (String → Except UpdateError String)
  publicKey : String → Except UpdateError String

/-- `UpdateBundleOut`. -/
structure UpdateBundleOut where
  bundleId : String
  version : String
  digest : String
  stagedAt : DateTime

/-- `_to_out`. -/
def UpdateRow.toOut (row : UpdateRow) : UpdateBundleOut := ⟨row.bundleId, row.version, row.digest, row.stagedAt⟩

/-- A request that changes bundles. Publishing reads the number of vulnerabilities and the version and
digest of the catalog; the version of the bundle is a reading of the clock. -/
inductive UpdateOperation
  | publish (intel : Except UpdateError (ℤ × Option (String × String))) (version : String)
  | sync (source : Str) (registry : Registry)

/-- A request, with its body, and whether its transaction goes through. -/
structure UpdateRequest where
  operation : UpdateOperation
  actorRole : String := "human"
  keyId : Option String := none
  keys : KeyAnswers
  now : DateTime
  commits : Bool := true

/-- The answer to a request. -/
inductive UpdateReply
  | published (bundle : UpdateBundleOut)
  | synced (result : SyncResult)

/-- Bundles are for humans. -/
def humanActor (actorRole : String) : Except UpdateError Unit :=
  if actorRole ≠ "human" then .error (.http 403) else .ok ()

/-- `body.key_id or signing_keys.default_key_id()`. -/
def chooseKey (keyId defaultKeyId : Option String) : Except UpdateError String :=
  match if keyId.getD "" = "" then defaultKeyId else keyId with
  | none => .error (.http 404)
  | some keyId => .ok keyId

/-- The payload of a published bundle. -/
def intelPayload (count : ℤ) (catalog : Option (String × String)) : Payload :=
  Dict.ofItems [("kind", .text "intel"), ("vulnerability_count", .int count),
    ("catalog_version", .text (catalog.elim "" Prod.fst)),
    ("catalog_digest", .text (catalog.elim "" Prod.snd))]

/-- The id of a published bundle. -/
def intelBundleId (H : Sha256) (version : String) (payload : Payload) : String :=
  "intel-" ++ String.ofList ((removePrefix (sha256Tag ++ H.hexdigest (Json.object
    [("version", .text version), ("payload", .object payload.items)]).dumps) sha256Tag).take 16)

namespace UpdateSetup

variable (setup : UpdateSetup)

/-- `publish_intel_bundle`. -/
def publishIntelBundle (db : UpdateDb) (request : UpdateRequest)
    (intel : Except UpdateError (ℤ × Option (String × String))) (version : String) :
    UpdateCall UpdateReply := do
  .ofExcept (humanActor request.actorRole)
  let keyId ← .ofExcept (chooseKey request.keyId request.keys.defaultKeyId)
  let signer ← .ofExcept (request.keys.signerFor keyId)
  let publicKey ← .ofExcept (request.keys.publicKey keyId)
  let (count, catalog) ← .ofExcept intel
  let payload := intelPayload count catalog
  let bundleId := intelBundleId setup.hash version payload
  let published := setup.publish signer publicKey bundleId version payload request.now
  let _ ← published
  match (db.written published.effects).bundles.get? bundleId with
  | none => .raise (.http 500)
  | some row => pure (.published row.toOut)

/-- `sync_bundle`. -/
def syncBundle (db : UpdateDb) (request : UpdateRequest) (source : Str) (registry : Registry) :
    UpdateCall UpdateReply := do
  .ofExcept (humanActor request.actorRole)
  let keyId ← .ofExcept (chooseKey request.keyId request.keys.defaultKeyId)
  let publicKey ← .ofExcept (request.keys.publicKey keyId)
  let publicKey ← .ofExcept (setup.b64decode publicKey)
  let result ← setup.sync registry publicKey db source request.now
  pure (.synced result)

/-- The handler of a request. -/
def run (db : UpdateDb) (request : UpdateRequest) : UpdateCall UpdateReply :=
  match request.operation with
  | .publish intel version => setup.publishIntelBundle db request intel version
  | .sync source registry => setup.syncBundle db request source registry

end UpdateSetup

/-- The status of an exception. `publish_intel_bundle` handles only a key that is not there. -/
def UpdateOperation.status : UpdateOperation → UpdateError → ℕ
  | _, .http status => status
  | _, .keyNotFound => 404
  | .sync _ _, .revoked _ => 409
  | .sync _ _, .fetch _ => 502
  | .sync _ _, .validation _ => 422
  | _, _ => 500

/-- The server: its database, and its `BundleSignatureState`. -/
structure UpdateServer where
  db : UpdateDb := {}
  lastValid : Bool := true
  lastBundleId : Option String := none

/-- `BundleSignatureState.record`. It is kept in memory, and no transaction undoes it. -/
def UpdateServer.remember (server : UpdateServer) : UpdateWrite → UpdateServer
  | .signature bundleId valid => { server with lastValid := valid, lastBundleId := some bundleId }
  | _ => server

/-- A request, with its transaction. -/
def UpdateServer.handle (setup : UpdateSetup) (server : UpdateServer) (request : UpdateRequest) :
    UpdateServer × Except ℕ UpdateReply :=
  let call := setup.run server.db request
  let remembered := call.effects.foldl UpdateServer.remember server
  match call.result with
  | .error error => (remembered, .error (request.operation.status error))
  | .ok reply =>
    if request.commits then ({ remembered with db := server.db.written call.effects }, .ok reply)
    else (remembered, .error 500)

/-- `get_active_bundle`. -/
def UpdateDb.getActiveBundle (db : UpdateDb) : Option String × Option UpdateBundleOut :=
  match db.active with
  | none => (none, none)
  | some activeId => (some activeId, (db.bundles.get? activeId).map UpdateRow.toOut)

/-! ## Accepted requests -/

/-- The request has verified a signature on the digest of the row, with the key that it names: that of its
own signer, or that of a release whose tag is not revoked. -/
def UpdateRequest.Vouches (setup : UpdateSetup) (request : UpdateRequest) (row : UpdateRow) : Prop :=
  request.actorRole = "human" ∧
  row.digest = setup.bundleDigest row.bundleId row.version defaultSchema row.payload ∧
  ∃ keyId keyText publicKey signature,
    chooseKey request.keyId request.keys.defaultKeyId = .ok keyId ∧
    request.keys.publicKey keyId = .ok keyText ∧ setup.b64decode keyText = .ok publicKey ∧
    setup.verify row.digest signature publicKey = true ∧
    match request.operation with
    | .publish _ _ => ∃ signer signed, request.keys.signerFor keyId = .ok signer ∧
        signer row.digest = .ok signed ∧ setup.b64decode signed = .ok signature
    | .sync source registry => ∃ owner repo tag, source = githubSource owner repo tag ∧
        setup.isRevoked registry owner repo tag = .ok false ∧
        setup.downloadAsset registry owner repo tag "bundle.json.sig" = .ok signature

/-- The event of a bundle that is activated where `previous` was active. -/
def UpdateBundle.Announces (bundle : UpdateBundle) (previous : Option String) (call : AuditCall) : Prop :=
  (∃ now, call = bundle.event "intel-publisher" "update.published" (publishedPayload bundle) now) ∨
    ∃ source now, call = bundle.event "bundle-sync" "update.synced" (syncedPayloadOf bundle source previous) now

section Accepted

variable {setup : UpdateSetup} {db : UpdateDb} {request : UpdateRequest} {effects : List UpdateWrite}

theorem UpdateBundle.create_eq_ok {digest : BundleDigest} {bundleId version schemaVersion : String}
    {payload : Payload} {bundle : UpdateBundle}
    (h : (UpdateBundle.create digest bundleId version schemaVersion payload).mapError UpdateError.validation =
      .ok bundle) :
    bundle = ⟨bundleId, version, schemaVersion, payload, digest bundleId version schemaVersion payload⟩ := by
  rw [UpdateBundle.create] at h
  split at h
  · cases h
  · exact (Except.ok.inj h).symm

/-- What a parsed bundle is. -/
theorem UpdateSetup.parse_digest {content : List UInt8} {bundle : UpdateBundle} (h : setup.parse content = .ok bundle) :
    bundle.digest = setup.bundleDigest bundle.bundleId bundle.version bundle.schemaVersion bundle.payload := by
  rw [UpdateSetup.parse] at h
  split at h
  next => cases h
  next => cases h
  next members _ =>
    obtain ⟨bundleId, -, h⟩ := bind_eq_ok_iff.mp h
    obtain ⟨version, -, h⟩ := bind_eq_ok_iff.mp h
    obtain ⟨schemaVersion, -, h⟩ := bind_eq_ok_iff.mp h
    obtain ⟨payload, -, h⟩ := bind_eq_ok_iff.mp h
    rw [UpdateBundle.create_eq_ok h]
  next => cases h

theorem UpdateSetup.fetch_eq_ok {registry : Registry} {source : Str} {content signature : List UInt8}
    (h : setup.fetch registry source = .ok (content, signature)) :
    ∃ owner repo tag, source = githubSource owner repo tag ∧
      setup.isRevoked registry owner repo tag = .ok false ∧
      setup.downloadAsset registry owner repo tag "bundle.json.sig" = .ok signature := by
  obtain ⟨⟨owner, repo, tag⟩, hsource, h⟩ := bind_eq_ok_iff.mp h
  obtain ⟨isRevoked, hrevoked, h⟩ := bind_eq_ok_iff.mp h
  cases isRevoked with
  | true => cases h
  | false =>
    obtain ⟨content, -, h⟩ := bind_eq_ok_iff.mp h
    obtain ⟨signature, hsignature, h⟩ := bind_eq_ok_iff.mp h
    cases h
    exact ⟨owner, repo, tag, (parseGithubSource_iff.mp hsource).1, hrevoked, hsignature⟩

/-- What `sync` has done once it returns. -/
theorem UpdateSetup.sync_eq_ok {registry : Registry} {publicKey : List UInt8} {source : Str} {now : DateTime}
    {result : SyncResult} (h : setup.sync registry publicKey db source now = ⟨effects, .ok result⟩) :
    ∃ bundle content signature call, setup.fetch registry source = .ok (content, signature) ∧
      setup.parse content = .ok bundle ∧ setup.verify bundle.digest signature publicKey = true ∧
      bundle.schemaVersion = defaultSchema ∧ bundle.Announces db.active call ∧
      effects = [.addBundle (bundle.updateRow now), .setActive bundle.bundleId, .audit call] := by
  obtain ⟨⟨content, signature⟩, hfetch, h⟩ := Acting.ofExcept_bind_eq_ok h
  obtain ⟨bundle, hparse, h⟩ := Acting.ofExcept_bind_eq_ok h
  dsimp only at h
  split at h
  next => cases congrArg Acting.result h
  next hvalid =>
    split at h
    next => cases congrArg Acting.result h
    next hschema =>
      exact ⟨bundle, content, signature, _, hfetch, hparse, Bool.not_eq_false _ |>.mp hvalid,
        not_not.mp hschema, Or.inr ⟨source, now, rfl⟩, (congrArg Acting.effects h).symm⟩

/-- What `publish` has done once it returns. -/
theorem UpdateSetup.publish_eq_ok {signer : String → Except UpdateError String} {keyText bundleId version : String}
    {payload : Payload} {now : DateTime} {bundle : UpdateBundle}
    (h : setup.publish signer keyText bundleId version payload now = ⟨effects, .ok bundle⟩) :
    bundle.bundleId = bundleId ∧
      bundle.digest = setup.bundleDigest bundle.bundleId bundle.version defaultSchema bundle.payload ∧
      (∃ signed signature publicKey, signer bundle.digest = .ok signed ∧
        setup.b64decode signed = .ok signature ∧ setup.b64decode keyText = .ok publicKey ∧
        setup.verify bundle.digest signature publicKey = true) ∧
      ∃ call, bundle.Announces db.active call ∧
        effects = [.signature bundle.bundleId true, .addBundle (bundle.updateRow now),
          .setActive bundle.bundleId, .audit call] := by
  obtain ⟨created, hcreate, h⟩ := Acting.ofExcept_bind_eq_ok h
  obtain ⟨signed, hsigned, h⟩ := Acting.ofExcept_bind_eq_ok h
  obtain ⟨signature, hsignature, h⟩ := Acting.ofExcept_bind_eq_ok h
  obtain ⟨publicKey, hkey, h⟩ := Acting.ofExcept_bind_eq_ok h
  dsimp only at h
  cases hvalid : setup.verify created.digest signature publicKey with
  | false =>
    rw [hvalid] at h
    cases congrArg Acting.result h
  | true =>
    rw [hvalid] at h
    obtain rfl : created = bundle := Except.ok.inj (congrArg Acting.result h)
    have hcreated := UpdateBundle.create_eq_ok hcreate
    exact ⟨by rw [hcreated], by rw [hcreated], ⟨signed, signature, publicKey, hsigned, hsignature, hkey,
      hvalid⟩, _, Or.inl ⟨now, rfl⟩, (congrArg Acting.effects h).symm⟩

theorem humanActor_eq_ok {actorRole : String} {u : Unit} (h : humanActor actorRole = .ok u) :
    actorRole = "human" := by
  by_contra hrole
  rw [humanActor, if_pos hrole] at h
  cases h

/-- **An accepted request** has verified a bundle and activates it. -/
theorem UpdateSetup.run_eq_ok {reply : UpdateReply} (h : setup.run db request = ⟨effects, .ok reply⟩) :
    ∃ (bundle : UpdateBundle) (call : AuditCall) (before : List UpdateWrite),
      request.Vouches setup (bundle.updateRow request.now) ∧ bundle.Announces db.active call ∧
      (∀ write ∈ before, ∃ bundleId valid, write = .signature bundleId valid) ∧
      effects = before ++
        [.addBundle (bundle.updateRow request.now), .setActive bundle.bundleId, .audit call] := by
  rw [UpdateSetup.run] at h
  split at h
  next intel version hoperation =>
    obtain ⟨_, hrole, h⟩ := Acting.ofExcept_bind_eq_ok h
    obtain ⟨keyId, hkeyId, h⟩ := Acting.ofExcept_bind_eq_ok h
    obtain ⟨signer, hsigner, h⟩ := Acting.ofExcept_bind_eq_ok h
    obtain ⟨keyText, hkeyText, h⟩ := Acting.ofExcept_bind_eq_ok h
    obtain ⟨⟨count, catalog⟩, -, h⟩ := Acting.ofExcept_bind_eq_ok h
    dsimp only at h
    obtain ⟨bundle, hbundle, -⟩ := Acting.bind_result_eq_ok (congrArg Acting.result h)
    obtain ⟨hid, hdigest, ⟨signed, signature, publicKey, hsigned, hsignature, hpublicKey, hvalid⟩, call,
      hcall, heffects⟩ := @UpdateSetup.publish_eq_ok _ db _ _ _ _ _ _ _ _
        (Acting.eq_mk hbundle)
    refine ⟨bundle, call, [.signature bundle.bundleId true],
      ⟨humanActor_eq_ok hrole, hdigest, keyId, keyText, publicKey, signature, hkeyId, hkeyText, hpublicKey,
        hvalid, ?_⟩, hcall, ?_, ?_⟩
    · rw [hoperation]
      exact ⟨signer, signed, hsigner, hsigned, hsignature⟩
    · intro write hwrite
      exact ⟨_, _, List.mem_singleton.mp hwrite⟩
    · -- The row that was written is there, so the state is never lost.
      have hrow : (db.written [.signature bundle.bundleId true, .addBundle (bundle.updateRow request.now),
          .setActive bundle.bundleId, .audit call]).bundles.get?
            (intelBundleId setup.hash version (intelPayload count catalog)) =
          some (bundle.updateRow request.now) := by
        rw [← hid]
        exact (Table.get?_put _ _ _).trans (if_pos rfl)
      rw [Acting.bind_of_ok hbundle, heffects, hrow] at h
      exact (congrArg Acting.effects h).symm
  next source registry hoperation =>
    obtain ⟨_, hrole, h⟩ := Acting.ofExcept_bind_eq_ok h
    obtain ⟨keyId, hkeyId, h⟩ := Acting.ofExcept_bind_eq_ok h
    obtain ⟨keyText, hkeyText, h⟩ := Acting.ofExcept_bind_eq_ok h
    obtain ⟨publicKey, hpublicKey, h⟩ := Acting.ofExcept_bind_eq_ok h
    obtain ⟨result, hresult, -⟩ := Acting.bind_result_eq_ok (congrArg Acting.result h)
    obtain ⟨bundle, content, signature, call, hfetch, hparse, hvalid, hschema, hcall, heffects⟩ :=
      UpdateSetup.sync_eq_ok (Acting.eq_mk hresult)
    refine ⟨bundle, call, [], ⟨humanActor_eq_ok hrole, ?_, keyId, keyText, publicKey, signature, hkeyId,
      hkeyText, hpublicKey, hvalid, ?_⟩, hcall, by simp, ?_⟩
    · rw [← hschema]
      exact UpdateSetup.parse_digest hparse
    · rw [hoperation]
      exact UpdateSetup.fetch_eq_ok hfetch
    · rw [Acting.bind_of_ok hresult, heffects] at h
      exact (congrArg Acting.effects h).symm

/-- The database after the writes of an accepted request. -/
theorem written_activation {before : List UpdateWrite}
    (hbefore : ∀ write ∈ before, ∃ bundleId valid, write = .signature bundleId valid) (row : UpdateRow)
    (bundleId : String) (call : AuditCall) :
    db.written (before ++ [.addBundle row, .setActive bundleId, .audit call]) =
      ⟨db.bundles.put row, some bundleId, db.audits ++ [call]⟩ := by
  have hsame : db.written before = db := by
    induction before with
    | nil => rfl
    | cons write before ih =>
      obtain ⟨bundleId, valid, rfl⟩ := hbefore write List.mem_cons_self
      exact ih fun write hwrite => hbefore write (List.mem_cons_of_mem _ hwrite)
  rw [UpdateDb.written, List.foldl_append]
  change UpdateDb.written (db.written before) _ = _
  rw [hsame]
  rfl

variable {server : UpdateServer}

theorem db_remember (writes : List UpdateWrite) (server : UpdateServer) :
    (writes.foldl UpdateServer.remember server).db = server.db := by
  induction writes generalizing server with
  | nil => rfl
  | cons write writes ih =>
    rw [List.foldl_cons, ih]
    cases write <;> rfl

/-- **A request leaves the database as it was and is refused, or it activates a bundle** for which it
vouches. -/
theorem UpdateServer.handle_cases :
    ((∃ status, (server.handle setup request).2 = .error status) ∧
        (server.handle setup request).1.db = server.db) ∨
      (∃ reply, (server.handle setup request).2 = .ok reply) ∧
        ∃ (bundle : UpdateBundle) (call : AuditCall),
          request.Vouches setup (bundle.updateRow request.now) ∧ bundle.Announces server.db.active call ∧
          (server.handle setup request).1.db =
            ⟨server.db.bundles.put (bundle.updateRow request.now), some bundle.bundleId,
              server.db.audits ++ [call]⟩ := by
  rw [UpdateServer.handle]
  cases hresult : (setup.run server.db request).result with
  | error error =>
    simp only
    exact Or.inl ⟨⟨_, rfl⟩, db_remember _ _⟩
  | ok reply =>
    simp only
    split_ifs with hcommits
    · obtain ⟨bundle, call, before, hvouches, hcall, hbefore, heffects⟩ :=
        UpdateSetup.run_eq_ok (Acting.eq_mk hresult)
      refine Or.inr ⟨⟨reply, rfl⟩, bundle, call, hvouches, hcall, ?_⟩
      rw [heffects]
      exact written_activation hbefore _ _ _
    · exact Or.inl ⟨⟨_, rfl⟩, db_remember _ _⟩

end Accepted

/-! ## The database and its events -/

/-- A request as a step. -/
def UpdateServer.step (setup : UpdateSetup) (server : UpdateServer) (request : UpdateRequest) :
    Option UpdateServer :=
  some (server.handle setup request).1

/-- The text of a member of an event. -/
def AuditCall.member (call : AuditCall) (key : String) : String :=
  match Dict.lookup key call.payload with
  | some (.text text) => text
  | _ => ""

/-- What events tell: the version and the digest of each bundle, and the active one. -/
structure Replayed where
  bundles : Dict String (String × String) := .empty
  active : Option String := none

/-- The next event. -/
def Replayed.next (replayed : Replayed) (call : AuditCall) : Replayed :=
  if call.resourceType = "update_bundle" ∧
      (call.action = "update.published" ∨ call.action = "update.synced") then
    ⟨replayed.bundles.set call.resourceId (call.member "version", call.member "digest"), some call.resourceId⟩
  else replayed

/-- What a list of events tells. -/
def replayed (calls : List AuditCall) : Replayed := calls.foldl Replayed.next {}

theorem replayed_concat {calls : List AuditCall} {call : AuditCall} :
    replayed (calls ++ [call]) = (replayed calls).next call := List.foldl_concat ..

/-- The event of a bundle tells its version and its digest. -/
theorem next_announced {bundle : UpdateBundle} {previous : Option String} {call : AuditCall}
    (h : bundle.Announces previous call) (told : Replayed) :
    told.next call = ⟨told.bundles.set bundle.bundleId (bundle.version, bundle.digest), some bundle.bundleId⟩ := by
  rcases h with ⟨now, rfl⟩ | ⟨source, now, rfl⟩
  · rfl
  · rfl

/-- The event names what was active before it, if it says so at all. -/
def AuditCall.Continues (call : AuditCall) (before : List AuditCall) : Prop :=
  call.action = "update.published" ∨
    call.action = "update.synced" ∧ Dict.lookup "previous_bundle_id" call.payload =
      some (((replayed before).active.map Json.text).getD .null)

/-- The database is what its events replay. -/
structure UpdateDb.Replays (db : UpdateDb) : Prop where
  active : db.active = (replayed db.audits).active
  bundles : ∀ bundleId, (db.bundles.get? bundleId).map (fun row => (row.version, row.digest)) =
    (replayed db.audits).bundles.get? bundleId
  continues : ∀ before call after, db.audits = before ++ call :: after → call.Continues before

section Runs

variable {setup : UpdateSetup} {server server' : UpdateServer} {request : UpdateRequest}
  {requests : List UpdateRequest}

/-- An event that is added to the log is the last one of it. -/
theorem UpdateDb.Replays.concat {db : UpdateDb} {bundle : UpdateBundle} {call : AuditCall} {now : DateTime}
    (h : db.Replays) (hcall : bundle.Announces db.active call) :
    UpdateDb.Replays ⟨db.bundles.put (bundle.updateRow now), some bundle.bundleId, db.audits ++ [call]⟩ := by
  have hlast : replayed (db.audits ++ [call]) = _ :=
    replayed_concat.trans (next_announced hcall (replayed db.audits))
  refine ⟨?_, fun bundleId => ?_, fun before call' after hsplit => ?_⟩
  · rw [hlast]
  · have hkey : (bundle.updateRow now).bundleId = bundle.bundleId := rfl
    rw [hlast, Table.get?_put, Dict.get?_set, hkey]
    by_cases hid : bundleId = bundle.bundleId
    · rw [if_pos hid, if_pos hid]
      rfl
    · rw [if_neg hid, if_neg hid]
      exact h.bundles bundleId
  · have hsplit : db.audits ++ [call] = before ++ call' :: after := hsplit
    rcases List.eq_nil_or_concat after with rfl | ⟨after, last, rfl⟩
    · obtain ⟨rfl, hlast⟩ := List.append_inj' hsplit rfl
      obtain rfl := List.singleton_inj.mp hlast
      rcases hcall with ⟨now, rfl⟩ | ⟨source, now, rfl⟩
      · exact Or.inl rfl
      · rw [h.active]
        exact Or.inr ⟨rfl, rfl⟩
    · have hinit : db.audits ++ [call] = (before ++ call' :: after) ++ [last] := by
        rw [hsplit, List.concat_eq_append, List.append_assoc, List.cons_append]
      exact h.continues before call' after (List.append_inj' hinit rfl).1

theorem UpdateDb.Replays.step (h : server.db.Replays) (hstep : server.step setup request = some server') :
    server'.db.Replays := by
  obtain rfl := Option.some.inj hstep
  rcases UpdateServer.handle_cases with ⟨-, hsame⟩ | ⟨-, bundle, call, -, hcall, hdb⟩
  · rw [hsame]
    exact h
  · rw [hdb]
    exact h.concat hcall

/-- **The database is what its events replay**: whatever is requested and whatever fails, the pointer and
the digests are those that the events tell in their order, an event of a synchronisation names what was
active before it, and no rejection is among the events. -/
theorem bundles_replayed (hrun : runLabels (UpdateServer.step setup) {} requests = some server) :
    server.db.Replays := by
  refine history_induction (P := fun _ server => server.db.Replays) ?_ ?_ hrun
  · exact ⟨rfl, fun _ => rfl, fun before call after hsplit => absurd hsplit (by simp)⟩
  · intro _ _ _ _ _ hbefore hstep
    exact hbefore.step hstep

/-- A key that signs by writing itself down, and a bundle at a release. -/
def sampleSetup : UpdateSetup where
  hash := codeDigest
  ed25519 := ⟨List UInt8, some, some, fun key signature _ => key == signature⟩
  repr := id
  loads content :=
    if content = [1] then .ok (.object [("revoked", .list [.text "v2"])])
    else .ok (.object [("bundle_id", .text "b-1"), ("version", .text "1"),
      ("schema_version", .text "secopent-intel/v1")])
  dictOf _ := .error .other
  b64decode _ := .ok [7]

/-- A synchronisation with a tag. -/
def sampleSync (tag : String) : UpdateRequest where
  operation := .sync ("github:acme/bundles:" ++ tag).toList fun url =>
    if endsWith url "revocations.json".toList then some (200, [1])
    else if endsWith url ".sig".toList then some (200, [7])
    else some (200, [2])
  keys := ⟨some "key", fun _ => .error .keyNotFound, fun _ => .ok "public"⟩
  now := halfPastNine (Fin.last 59)

/-- The tag of the second request is revoked. -/
theorem bundles_replayed_revoked :
    ∃ server, runLabels (UpdateServer.step sampleSetup) {} [sampleSync "v1", sampleSync "v2"] = some server ∧
      server.db.audits.map AuditCall.action = ["update.synced"] ∧
      server.db.active = (replayed server.db.audits).active ∧
      (replayed server.db.audits).active = some "b-1" :=
  ⟨_, rfl, by decide +kernel,
    (@bundles_replayed sampleSetup _ [sampleSync "v1", sampleSync "v2"] rfl).active, by decide +kernel⟩

/-- Every row was vouched for by one of the requests, and what is active is there. -/
structure UpdateDb.Vouched (setup : UpdateSetup) (requests : List UpdateRequest) (db : UpdateDb) : Prop where
  rows : ∀ bundleId row, db.bundles.get? bundleId = some row →
    ∃ request ∈ requests, request.Vouches setup row
  active : ∀ bundleId, db.active = some bundleId → ∃ row, db.bundles.get? bundleId = some row

theorem UpdateDb.Vouched.step (h : server.db.Vouched setup requests)
    (hstep : server.step setup request = some server') :
    server'.db.Vouched setup (requests ++ [request]) := by
  have hold : ∀ row, (∃ earlier ∈ requests, earlier.Vouches setup row) →
      ∃ earlier ∈ requests ++ [request], earlier.Vouches setup row := by
    rintro row ⟨earlier, hearlier, hvouches⟩
    exact ⟨earlier, List.mem_append_left _ hearlier, hvouches⟩
  obtain rfl := Option.some.inj hstep
  rcases UpdateServer.handle_cases with ⟨-, hsame⟩ | ⟨-, bundle, call, hvouches, -, hdb⟩
  · rw [hsame]
    exact ⟨fun bundleId row hrow => hold row (h.rows bundleId row hrow), h.active⟩
  · rw [hdb]
    refine ⟨fun bundleId row hrow => ?_, fun bundleId hactive => ?_⟩
    · rw [Table.get?_put] at hrow
      split at hrow
      next =>
        obtain rfl := Option.some.inj hrow
        exact ⟨request, by simp, hvouches⟩
      next => exact hold row (h.rows bundleId row hrow)
    · obtain rfl := Option.some.inj hactive
      exact ⟨_, (Table.get?_put _ _ _).trans (if_pos rfl)⟩

/-- **Nothing is kept that was not signed**: each row of a run carries the digest of its content, and one
of the requests has verified a signature on that digest, from a human and, if the bundle was fetched, with
a tag that was not revoked. The active bundle is one of the rows, so it is answered with its id. -/
theorem bundles_vouched (hrun : runLabels (UpdateServer.step setup) {} requests = some server) :
    server.db.Vouched setup requests ∧
      ∀ bundleId, server.db.active = some bundleId → ∃ row : UpdateRow,
        server.db.getActiveBundle = (some bundleId, some row.toOut) ∧ row.bundleId = bundleId ∧
        ∃ request ∈ requests, request.Vouches setup row := by
  have hvouched : server.db.Vouched setup requests := by
    refine history_induction (P := fun requests server => server.db.Vouched setup requests) ?_ ?_ hrun
    · exact ⟨fun _ _ hrow => absurd hrow (by simp), fun _ hactive => absurd hactive (by simp)⟩
    · intro _ _ _ _ _ hbefore hstep
      exact hbefore.step hstep
  refine ⟨hvouched, fun bundleId hactive => ?_⟩
  obtain ⟨row, hrow⟩ := hvouched.active bundleId hactive
  refine ⟨row, ?_, Table.key_of_get? hrow, hvouched.rows bundleId row hrow⟩
  simp only [UpdateDb.getActiveBundle, hactive, hrow, Option.map_some]

/-- The row comes from the first request. -/
theorem bundles_vouched_synced :
    ∃ server row, runLabels (UpdateServer.step sampleSetup) {} [sampleSync "v1", sampleSync "v2"] = some server ∧
      server.db.getActiveBundle = (some "b-1", some (UpdateRow.toOut row)) ∧
      ∃ request ∈ [sampleSync "v1", sampleSync "v2"], request.Vouches sampleSetup row := by
  obtain ⟨row, hanswer, -, hvouched⟩ := (@bundles_vouched sampleSetup _
    [sampleSync "v1", sampleSync "v2"] rfl).2 "b-1" (by decide +kernel)
  exact ⟨_, row, rfl, hanswer, hvouched⟩

end Runs

end SecOpent
