import SecOpent.Audit.Events
import SecOpent.Python.Call
import SecOpent.Python.DateTime
import SecOpent.Python.Dict
import SecOpent.Python.Table

/-!
# Signing keys

`SigningKeyService` of `application/signing_keys.py` with the `SecretStore` of
`application/secret_store.py`. The keys are kept in memory, their public part in a metadata file, which
is written whole after each change, and the private part in a backend that survives restarts. A key that
is rotated is archived, and its successor has another name.

## Main definitions

* `SecretStore`: `register`, `resolve`
* `SigningKeys`: what the service keeps
* `SigningKeyService`: `createKey`, `ensureDefaultKey`, `rotate`, `signerFor`, `restart`

## Main results

* `loadMetadata_values`: a service that restarts reads its keys back
* `signerFor_eq_ok`: when there is a signer, and for which key
-/

namespace SecOpent

open Python

/-! ## The secret store -/

/-- `SecretMetadata`. -/
structure SecretMetadata where
  secretRef : String
  name : String
  createdAt : DateTime

/-- A `SecretBackend`. -/
abbrev SecretBackend := Dict String String

/-- `SecretStore`, without the backend: `canonical_digest` of a name and a reading of the clock, and
`_metadata_to_json`. -/
structure SecretStore where
  digest : String → DateTime → String
  metadataToJson : SecretMetadata → String

namespace SecretStore

/-- `_meta_ref`. -/
def metaRef (secretRef : String) : String := "meta:" ++ secretRef

/-- The reference of a secret. -/
def secretRef (store : SecretStore) (name : String) (now : DateTime) : String :=
  "secret:" ++ String.ofList ((removePrefix (store.digest name now).toList sha256Tag).take 16)

/-- `register`. -/
def register (store : SecretStore) (name value : String) (now : DateTime) (backend : SecretBackend) :
    SecretMetadata × SecretBackend :=
  let metadata := ⟨store.secretRef name now, name, now⟩
  (metadata, (backend.set metadata.secretRef value).set (metaRef metadata.secretRef)
    (store.metadataToJson metadata))

/-- `resolve`. -/
def resolve (secretRef : String) (backend : SecretBackend) : Except String String :=
  match backend.get? secretRef with
  | some value => .ok value
  | none => .error ("unknown secret_ref: " ++ secretRef)

variable {store : SecretStore} {name value secretRef : String} {now : DateTime}
  {backend : SecretBackend}

/-- The secret that was registered is there. -/
theorem get?_register : (store.register name value now backend).2.get? (store.secretRef name now) =
    some value := by
  -- The reference of the metadata has another first letter.
  have hne : store.secretRef name now ≠ metaRef (store.secretRef name now) := by
    intro h
    have hchars := congrArg String.toList h
    simp only [metaRef, SecretStore.secretRef, String.toList_append] at hchars
    exact absurd (List.head_eq_of_cons_eq hchars) (by decide)
  simp only [register, Dict.get?_set, if_neg hne, if_pos]

/-- Registering a secret takes none away. -/
theorem get?_register_ne_none (h : backend.get? secretRef ≠ none) :
    (store.register name value now backend).2.get? secretRef ≠ none := by
  simp only [register, Dict.get?_set]
  split
  · exact Option.some_ne_none _
  · split
    · exact Option.some_ne_none _
    · exact h

end SecretStore

/-! ## The keys -/

/-- `SigningKeyInfo`. -/
structure SigningKeyInfo where
  keyId : String
  name : String
  publicKey : String
  createdAt : DateTime
  archived : Bool := false

/-- What `generate` returns. -/
structure KeyPair where
  privateMaterial : String
  publicKey : String

/-- A signer of the bytes of a payload. -/
abbrev KeySigner := List UInt8 → String

/-- The keys in memory, the entries of the metadata file, if there is one, and the backend of the
secrets. -/
structure SigningKeys where
  keys : Dict String SigningKeyInfo := .empty
  metadata : Option (List SigningKeyInfo) := none
  backend : SecretBackend := .empty

namespace SigningKeys

/-- `_load_metadata`. -/
def loadMetadata : Option (List SigningKeyInfo) → Dict String SigningKeyInfo
  | none => .empty
  | some entries => .ofItems (entries.map fun info => (info.keyId, info))

/-- `_flush_metadata`. -/
def flushMetadata (store : SigningKeys) : SigningKeys :=
  { store with metadata := some store.keys.values }

/-- `self._keys[key_id] = info`, written to the file. -/
def storeKey (store : SigningKeys) (keyId : String) (info : SigningKeyInfo) : SigningKeys :=
  { store with keys := store.keys.set keyId info }.flushMetadata

/-- The process starts again. -/
def restart (store : SigningKeys) : SigningKeys :=
  { store with keys := loadMetadata store.metadata }

/-- `list_keys`. -/
def listKeys (store : SigningKeys) : List SigningKeyInfo :=
  (store.keys.items.mergeSort fun a b => a.1 ≤ b.1).map Prod.snd

/-- The first key with a name that is not archived. -/
def named? (store : SigningKeys) (name : String) : Option SigningKeyInfo :=
  store.keys.values.find? fun info => info.name == name && !info.archived

/-- `default_key_id`. -/
def defaultKeyId (store : SigningKeys) : Option String :=
  (store.keys.values.filter fun info => !info.archived).getLast?.map (·.keyId)

/-- The key of `signer_for`. -/
def signingKey (store : SigningKeys) (keyId : Option String) : Except String String :=
  match (keyId.filter (· ≠ "")).or store.defaultKeyId with
  | none => .error "no signing keys available"
  -- Whether the key is archived is not asked.
  | some target =>
    if store.keys.get? target = none then .error ("unknown signing key: " ++ target) else .ok target

end SigningKeys

/-- `SigningKeyService`, over what it keeps. -/
structure SigningKeyService where
  secrets : SecretStore
  signer : String → KeySigner

/-- A call on the keys. -/
abbrev KeyCall := Call SigningKeys SigningKeyInfo

namespace SigningKeyService

variable (service : SigningKeyService)

/-- The key that `create_key` creates. -/
def newKey (name : String) (now : DateTime) (pair : KeyPair) : SigningKeyInfo where
  keyId := service.secrets.secretRef name now
  name := name
  publicKey := pair.publicKey
  createdAt := now

/-- `create_key`, with what `generate` returns. -/
def createKey (name : String) (now : DateTime) (pair : KeyPair) : KeyCall := fun store =>
  let (metadata, backend) := service.secrets.register name pair.privateMaterial now store.backend
  let info := { keyId := metadata.secretRef, name, publicKey := pair.publicKey, createdAt := now }
  (.ok info, { store with backend }.storeKey info.keyId info)

/-- `ensure_default_key`. -/
def ensureDefaultKey (name : String) (now : DateTime) (pair : KeyPair) : KeyCall := fun store =>
  match store.named? name with
  | some info => (.ok info, store)
  | none => service.createKey name now pair store

/-- `get`. -/
def get (keyId : String) : KeyCall := fun store =>
  match store.keys.get? keyId with
  | some info => (.ok info, store)
  | none => (.error ("unknown signing key: " ++ keyId), store)

/-- `self._keys[key_id] = replace(old, archived=True)`. -/
def archive (keyId : String) (info : SigningKeyInfo) : Call SigningKeys Unit := fun store =>
  (.ok (), store.storeKey keyId { info with archived := true })

/-- `rotate`. -/
def rotate (oldKeyId : String) (now : DateTime) (pair : KeyPair) : KeyCall := do
  let old ← get oldKeyId
  let new ← service.createKey (old.name ++ "-next") now pair
  archive oldKeyId old
  pure new

/-- `signer_for`. -/
def signerFor (keyId : Option String) (store : SigningKeys) : Except String KeySigner := do
  let target ← store.signingKey keyId
  let privateMaterial ← SecretStore.resolve target store.backend
  .ok (service.signer privateMaterial)

/-! ## What the calls do -/

section Calls

variable {service} {store : SigningKeys} {name oldKeyId : String} {now : DateTime} {pair : KeyPair}
  {keyId : Option String}

theorem ensureDefaultKey_of_some {info : SigningKeyInfo} (h : store.named? name = some info) :
    service.ensureDefaultKey name now pair store = (.ok info, store) := by
  simp only [ensureDefaultKey, h]

theorem ensureDefaultKey_of_none (h : store.named? name = none) :
    service.ensureDefaultKey name now pair store = service.createKey name now pair store := by
  simp only [ensureDefaultKey, h]

theorem rotate_of_none (h : store.keys.get? oldKeyId = none) :
    service.rotate oldKeyId now pair store =
      (.error ("unknown signing key: " ++ oldKeyId), store) := by
  refine Call.bind_of_error ?_
  simp only [get, h]

/-- A rotation creates a key and archives the old one. -/
theorem rotate_of_some {old : SigningKeyInfo} (h : store.keys.get? oldKeyId = some old) :
    service.rotate oldKeyId now pair store =
      (.ok (service.newKey (old.name ++ "-next") now pair),
        (service.createKey (old.name ++ "-next") now pair store).2.storeKey oldKeyId
          { old with archived := true }) := by
  refine Call.bind_of_ok (t := store) ?_
  simp only [get, h]

/-- There is a signer for a key that is found, if its secret is there. -/
theorem signerFor_eq_ok {signer : KeySigner} :
    service.signerFor keyId store = .ok signer ↔
      ∃ target privateMaterial, store.signingKey keyId = .ok target ∧
        store.backend.get? target = some privateMaterial ∧
        service.signer privateMaterial = signer := by
  have hresolve : ∀ target privateMaterial,
      SecretStore.resolve target store.backend = .ok privateMaterial ↔
        store.backend.get? target = some privateMaterial := by
    intro target privateMaterial
    unfold SecretStore.resolve
    cases store.backend.get? target with
    | none => simp
    | some value => simp
  simp only [signerFor, bind_eq_ok_iff, hresolve, Except.ok.injEq, exists_and_left]

end Calls

end SigningKeyService

namespace SigningKeys

variable {store : SigningKeys} {keyId name : String} {info : SigningKeyInfo}

/-- **A service that restarts reads its keys back**, if each is kept under its own id. -/
theorem loadMetadata_values (h : ∀ item ∈ store.keys.items, item.1 = item.2.keyId) :
    loadMetadata (some store.keys.values) = store.keys := by
  have hitems : store.keys.values.map (fun info => (info.keyId, info)) = store.keys.items := by
    rw [Dict.values, List.map_map]
    refine (List.map_congr_left fun item hitem => ?_).trans (List.map_id _)
    exact Prod.ext (h item hitem).symm rfl
  rw [loadMetadata, hitems, Dict.ofItems_items]

theorem mem_listKeys : info ∈ store.listKeys ↔ ∃ keyId, store.keys.get? keyId = some info := by
  simp only [listKeys, List.mem_map, List.mem_mergeSort, Prod.exists, Dict.mem_items_iff]
  constructor
  · rintro ⟨keyId, _, hget, rfl⟩
    exact ⟨keyId, hget⟩
  · rintro ⟨keyId, hget⟩
    exact ⟨keyId, info, hget, rfl⟩

/-- A key that is asked for by its id is the one that signs. -/
theorem signingKey_some (hne : keyId ≠ "") (h : store.keys.get? keyId ≠ none) :
    store.signingKey (some keyId) = .ok keyId := by
  have hfilter : (some keyId).filter (fun id => decide (id ≠ "")) = some keyId := by
    simp [hne]
  rw [signingKey, hfilter]
  exact if_neg h

/-- What signs is what was asked for, or a key that is not archived. -/
theorem signingKey_eq_ok {asked : Option String} (h : store.signingKey asked = .ok keyId) :
    (asked = some keyId ∧ keyId ≠ "") ∨
      ∃ info ∈ store.keys.values, info.archived = false ∧ info.keyId = keyId := by
  unfold signingKey at h
  cases hasked : asked.filter (fun id => decide (id ≠ "")) with
  | some target =>
    rw [hasked] at h
    have htarget : target = keyId := by
      simp only [Option.some_or] at h
      split at h
      · cases h
      · exact Except.ok.inj h
    obtain ⟨hsome, hne⟩ := Option.filter_eq_some_iff.mp hasked
    exact .inl ⟨by rw [hsome, htarget], by simpa [htarget] using hne⟩
  | none =>
    rw [hasked, Option.none_or] at h
    cases hdefault : store.defaultKeyId with
    | none =>
      rw [hdefault] at h
      cases h
    | some target =>
      rw [hdefault] at h
      have htarget : target = keyId := by
        simp only at h
        split at h
        · cases h
        · exact Except.ok.inj h
      obtain ⟨info, hlast, hkey⟩ := Option.map_eq_some_iff.mp hdefault
      obtain ⟨hmem, hactive⟩ := List.mem_filter.mp (List.mem_of_getLast? hlast)
      exact .inr ⟨info, hmem, by simpa using hactive, hkey.trans htarget⟩

end SigningKeys

end SecOpent
