import SecOpent.Python.Call
import SecOpent.Python.Json
import SecOpent.Python.Table

/-!
# Synchronising update bundles

`UpdateManager.sync` of `application/updates.py` over a `BundleRepository`: the bundle is staged before
it is verified, and activated after it. Staging merges by the id of the bundle, so a bundle with the id
of the active one replaces what is active, whatever becomes of it. Activation is undone where it raises
after it has moved the pointer, if there was a bundle before; an event that cannot be recorded after the
activation does not undo it.

What the collaborators answer, and where they raise, is an argument of the call.

## Main definitions

* `BundleStore`: the staged bundles and the pointer to the active one
* `UpdateManager.sync`: one call
* `SyncAnswers.KeepsActive`: the condition on a call

## Main results

* `sync_atomic_iff`: a call that raises leaves the active bundle exactly if it meets the condition
-/

namespace SecOpent

open Python

/-! ## Bundles -/

/-- A JSON object with its keys. -/
abbrev Payload := Dict String Json

/-- `UpdateBundle`. -/
structure UpdateBundle where
  bundleId : String
  version : String
  schemaVersion : String
  payload : Payload
  digest : String

/-- `canonical_digest` of the payload of a bundle. -/
abbrev BundleDigest := String → String → String → Payload → String

/-- `UpdateBundle.create`. -/
def UpdateBundle.create (digest : BundleDigest) (bundleId version schemaVersion : String)
    (payload : Payload) : Except String UpdateBundle :=
  if bundleId = "" ∨ version = "" ∨ schemaVersion = "" then
    .error "bundle_id, version, schema_version must not be empty"
  else .ok ⟨bundleId, version, schemaVersion, payload, digest bundleId version schemaVersion payload⟩

/-- A staged row, with the signature of the bundle. -/
structure StagedBundle where
  bundleId : String
  version : String
  digest : String
  payload : Payload
  signature : List UInt8

/-- The row of a bundle. -/
def UpdateBundle.row (bundle : UpdateBundle) (signature : List UInt8) : StagedBundle where
  bundleId := bundle.bundleId
  version := bundle.version
  digest := bundle.digest
  payload := bundle.payload
  signature := signature

/-- The rows of a `BundleRepository`, and its pointers. -/
structure BundleStore where
  staged : Table StagedBundle StagedBundle.bundleId := .empty
  active : Option String := none
  previous : Option String := none

namespace BundleStore

/-- `stage`: the row of the bundle. -/
def stage (store : BundleStore) (bundle : UpdateBundle) (signature : List UInt8) : BundleStore :=
  { store with staged := store.staged.put (bundle.row signature) }

@[simp] theorem active_stage {store : BundleStore} {bundle : UpdateBundle} {signature : List UInt8} :
    (store.stage bundle signature).active = store.active := rfl

/-- `activate`: the pointer is moved, and the one before it kept. -/
def activate (store : BundleStore) (bundleId : String) : BundleStore :=
  { store with active := some bundleId, previous := store.active }

/-- The content of the active bundle. -/
def activeContent (store : BundleStore) : Option StagedBundle := store.active.bind store.staged.get?

end BundleStore

/-! ## A call -/

/-- What becomes of a write to the repository: it may raise before or after it is kept. -/
inductive BundleWrite
  | done
  | raises (error : String) (kept : Bool)

/-- A write to the repository. -/
def BundleWrite.call (fate : BundleWrite) (write : BundleStore → BundleStore) :
    Call BundleStore Unit := fun store =>
  match fate with
  | .done => (.ok (), write store)
  | .raises error kept => (.error error, if kept then write store else store)

theorem BundleWrite.call_done {write : BundleStore → BundleStore} {store : BundleStore} :
    BundleWrite.done.call write store = (.ok (), write store) := rfl

theorem BundleWrite.call_raises {error : String} {kept : Bool} {write : BundleStore → BundleStore}
    {store : BundleStore} :
    (BundleWrite.raises error kept).call write store =
      (.error error, if kept then write store else store) := rfl

/-- The write has failed and left nothing. -/
def BundleWrite.Lost (fate : BundleWrite) : Prop := ∃ error, fate = .raises error false

/-- The members of a bundle document. -/
structure BundleDocument where
  bundleId : Option String
  version : Option String
  schemaVersion : Option String
  payload : Option Payload

/-- What the collaborators of `sync` answer. `loads` is `json.loads` of the decoded bytes; the reads are
those of the pointer and of the staged row; an event is given by its action, its resource and its
payload. -/
structure SyncAnswers where
  fetched : Except String (List UInt8 × List UInt8)
  loads : List UInt8 → Except String BundleDocument
  pointerRead : Except String Unit := .ok ()
  staging : BundleWrite := .done
  verified : UpdateBundle → List UInt8 → Except String Bool
  stagedRead : Except String Unit := .ok ()
  recorded : String → String → List (String × Json) → Except String Unit := fun _ _ _ => .ok ()
  activation : BundleWrite := .done
  pointerReadAgain : Except String Unit := .ok ()
  restoring : BundleWrite := .done

/-- `UpdateManager`: `digest` is that of a bundle, and `differs` is `!=` on values of a payload. -/
structure UpdateManager where
  digest : BundleDigest
  differs : Json → Json → Bool
  expectedSchema : String

/-- `SyncResult`. -/
structure SyncResult where
  bundleId : String
  version : String
  digest : String
  previousBundleId : Option String

/-- A member of a document that has to be there. -/
def requireMember {α : Type} (key : String) : Option α → Except String α
  | some value => .ok value
  | none => .error ("'" ++ key ++ "'")

/-- `sorted` on keys. -/
def sortedKeys (keys : List String) : List Json :=
  (keys.mergeSort fun a b => decide (a ≤ b)).map .text

section Sync

variable (manager : UpdateManager) (answers : SyncAnswers)

/-- `_fetch`. -/
def UpdateManager.fetch : Except String (UpdateBundle × List UInt8) := do
  let (bytes, signature) ← answers.fetched
  let document ← (answers.loads bytes).mapError fun error =>
    "bundle bytes are not valid JSON: " ++ error
  let bundleId ← requireMember "bundle_id" document.bundleId
  let version ← requireMember "version" document.version
  let schemaVersion ← requireMember "schema_version" document.schemaVersion
  let bundle ← UpdateBundle.create manager.digest bundleId version schemaVersion
    (document.payload.getD .empty)
  pure (bundle, signature)

/-- The bundle and its signature; the signature of an injected bundle is fetched as well. -/
def UpdateManager.acquire (injected : Option UpdateBundle) :
    Except String (UpdateBundle × List UInt8) :=
  match injected with
  | none => manager.fetch answers
  | some bundle => answers.fetched.map fun fetched => (bundle, fetched.2)

/-- `_preview_diff`. -/
def UpdateManager.previewDiff (store : BundleStore) (previous : Option String)
    (bundle : UpdateBundle) : Json :=
  let newKeys := bundle.payload.items.map Prod.fst
  match previous with
  | none => .object
      [("added", .list (newKeys.map .text)), ("removed", .list []), ("changed", .list [])]
  | some previous =>
    match store.staged.get? previous with
    | none => .object
        [("added", .list []), ("removed", .list []), ("changed", .list []),
          ("note", .text "previous not found")]
    | some row =>
      let oldKeys := row.payload.items.map Prod.fst
      let changed := oldKeys.filter fun key =>
        match row.payload.get? key, bundle.payload.get? key with
        | some old, some new => manager.differs old new
        | _, _ => false
      .object
        [("added", .list (sortedKeys (newKeys.filter fun key => !oldKeys.contains key))),
          ("removed", .list (sortedKeys (oldKeys.filter fun key => !newKeys.contains key))),
          ("changed", .list (sortedKeys changed))]

/-- `AuditService.record` on a bundle. -/
def SyncAnswers.record (action : String) (bundle : UpdateBundle) (payload : List (String × Json)) :
    Call BundleStore Unit := .ofExcept id (answers.recorded action bundle.bundleId payload)

/-- The event of a rejected bundle, and the exception. -/
def SyncAnswers.reject (bundle : UpdateBundle) (payload : List (String × Json)) (error : String) :
    Call BundleStore Unit := do
  answers.record "update.rejected" bundle payload
  .raise error

/-- The check of the signature. -/
def SyncAnswers.verify (bundle : UpdateBundle) (signature : List UInt8) : Call BundleStore Unit := do
  let valid ← .ofExcept id (answers.verified bundle signature)
  if valid then pure ()
  else
    answers.reject bundle
      [("reason", .text "signature_invalid"), ("version", .text bundle.version)]
      ("signature verification failed for bundle " ++ bundle.bundleId)

/-- The check of the schema. -/
def UpdateManager.checkSchema (bundle : UpdateBundle) : Call BundleStore Unit :=
  if bundle.schemaVersion = manager.expectedSchema then pure ()
  else
    answers.reject bundle
      [("reason", .text "schema_incompatible"), ("bundle_schema", .text bundle.schemaVersion),
        ("expected_schema", .text manager.expectedSchema)]
      ("schema version mismatch: bundle=" ++ bundle.schemaVersion ++ " expected=" ++
        manager.expectedSchema)

/-- The preview; the row is read only if a bundle was active. -/
def UpdateManager.preview (previous : Option String) (bundle : UpdateBundle) :
    Call BundleStore Json := do
  .ofExcept id (if previous = none then .ok () else answers.stagedRead)
  .read fun store => manager.previewDiff store previous bundle

/-- The pointer to the active bundle. -/
def readPointer (answer : Except String Unit) : Call BundleStore (Option String) := do
  .ofExcept id answer
  .read BundleStore.active

/-- The bundle that was active is activated again, where there was one. -/
def SyncAnswers.restore : Option String → Call BundleStore Unit
  | none => pure ()
  | some previous => do
    let active ← readPointer answers.pointerReadAgain
    if active = some previous then pure ()
    else answers.restoring.call fun store => store.activate previous

/-- The handler of a failed activation. -/
def SyncAnswers.undo (previous : Option String) (bundle : UpdateBundle) (error : String) :
    Call BundleStore Unit := do
  answers.restore previous
  answers.reject bundle [("reason", .text "activation_failed"), ("error", .text error)] error

/-- The payload of `update.synced`. -/
def syncedPayload (source : String) (bundle : UpdateBundle) (diff : Json) : List (String × Json) :=
  [("version", .text bundle.version), ("schema_version", .text bundle.schemaVersion),
    ("source", .text source), ("digest", .text bundle.digest), ("diff", diff)]

/-- The payload of `update.activated`. -/
def activatedPayload (previous : Option String) (bundle : UpdateBundle) : List (String × Json) :=
  [("version", .text bundle.version),
    ("previous_bundle_id", (previous.map Json.text).getD .null), ("digest", .text bundle.digest)]

/-- What comes between staging and activation. -/
def UpdateManager.prepare (source : String) (previous : Option String) (bundle : UpdateBundle)
    (signature : List UInt8) : Call BundleStore Unit := do
  answers.verify bundle signature
  manager.checkSchema answers bundle
  let diff ← manager.preview answers previous bundle
  answers.record "update.synced" bundle (syncedPayload source bundle diff)

/-- The activation, and its event. -/
def SyncAnswers.activate (previous : Option String) (bundle : UpdateBundle) :
    Call BundleStore SyncResult := do
  .tryExcept (answers.activation.call fun store => store.activate bundle.bundleId)
    (answers.undo previous bundle)
  answers.record "update.activated" bundle (activatedPayload previous bundle)
  pure ⟨bundle.bundleId, bundle.version, bundle.digest, previous⟩

/-- `sync`. -/
def UpdateManager.sync (source : String) (injected : Option UpdateBundle) :
    Call BundleStore SyncResult := do
  let (bundle, signature) ← .ofExcept id (manager.acquire answers injected)
  let previous ← readPointer answers.pointerRead
  answers.staging.call fun store => store.stage bundle signature
  manager.prepare answers source previous bundle signature
  answers.activate previous bundle

end Sync

/-! ## Calls that leave the store alone -/

section Silent

variable {manager : UpdateManager} {answers : SyncAnswers} {source : String}
  {previous : Option String} {bundle : UpdateBundle} {signature : List UInt8}
  {store store' : BundleStore}

theorem record_silent (action : String) (payload : List (String × Json)) :
    (answers.record action bundle payload).Silent := .ofExcept _ _

theorem reject_silent (payload : List (String × Json)) (error : String) :
    (answers.reject bundle payload error).Silent :=
  (record_silent _ _).bind fun _ => .raise _

theorem verify_silent : (answers.verify bundle signature).Silent := by
  refine (Call.Silent.ofExcept _ _).bind fun valid => ?_
  cases valid with
  | true => exact .pure _
  | false => exact reject_silent _ _

theorem checkSchema_silent : (manager.checkSchema answers bundle).Silent := by
  unfold UpdateManager.checkSchema
  split
  · exact .pure _
  · exact reject_silent _ _

theorem preview_silent : (manager.preview answers previous bundle).Silent :=
  (Call.Silent.ofExcept _ _).bind fun _ => .read _

theorem prepare_silent : (manager.prepare answers source previous bundle signature).Silent :=
  verify_silent.bind fun _ => checkSchema_silent.bind fun _ => preview_silent.bind fun _ =>
    record_silent _ _

theorem readPointer_of_ok : readPointer (.ok ()) store = (.ok store.active, store) := rfl

theorem readPointer_of_error {error : String} :
    readPointer (.error error) store = (.error error, store) := rfl

/-- A rejection never returns. -/
theorem reject_raises (payload : List (String × Json)) (error : String) :
    (answers.reject bundle payload error).Raises :=
  .of_rest fun _ => .raise _

theorem verify_eq_ok {u : Unit} :
    answers.verify bundle signature store = (.ok u, store') ↔
      answers.verified bundle signature = .ok true ∧ store = store' := by
  unfold SyncAnswers.verify
  simp only [Call.bind_eq_ok, Call.ofExcept_eq_ok]
  constructor
  · rintro ⟨valid, _, ⟨hvalid, rfl⟩, hrest⟩
    cases valid with
    | true =>
      cases hrest
      exact ⟨hvalid, rfl⟩
    | false => exact absurd hrest (reject_raises _ _).ne_ok
  · rintro ⟨hvalid, rfl⟩
    exact ⟨true, store, ⟨hvalid, rfl⟩, rfl⟩

theorem checkSchema_eq_ok {u : Unit} :
    manager.checkSchema answers bundle store = (.ok u, store') ↔
      bundle.schemaVersion = manager.expectedSchema ∧ store = store' := by
  unfold UpdateManager.checkSchema
  split
  next h => simp [h]
  next h => exact iff_of_false (reject_raises _ _).ne_ok fun hboth => h hboth.1

theorem preview_eq_ok {diff : Json} :
    manager.preview answers previous bundle store = (.ok diff, store') ↔
      (previous ≠ none → answers.stagedRead = .ok ()) ∧
        manager.previewDiff store previous bundle = diff ∧ store = store' := by
  unfold UpdateManager.preview
  simp only [Call.bind_eq_ok, Call.ofExcept_eq_ok, Call.read_apply]
  by_cases hprevious : previous = none
  · simp [hprevious]
  · simp [hprevious, Unique.exists_iff]

end Silent

/-! ## The condition -/

section Atomic

variable (manager : UpdateManager) (answers : SyncAnswers) (source : String) (store : BundleStore)
  (bundle : UpdateBundle) (signature : List UInt8)

/-- Staging the bundle leaves the content of the active one as it is. -/
def BundleStore.Harmless : Prop :=
  store.active = some bundle.bundleId →
    store.staged.get? bundle.bundleId = some (bundle.row signature)

/-- The staged bundle reaches its activation. -/
def SyncAnswers.Ready : Prop :=
  answers.verified bundle signature = .ok true ∧
  bundle.schemaVersion = manager.expectedSchema ∧
  (store.active ≠ none → answers.stagedRead = .ok ()) ∧
  answers.recorded "update.synced" bundle.bundleId
    (syncedPayload source bundle
      (manager.previewDiff (store.stage bundle signature) store.active bundle)) = .ok ()

/-- A failure of the activation, or of its event, leaves the active bundle as it was. -/
def SyncAnswers.Undone : Prop :=
  match answers.activation with
  | .done =>
    answers.recorded "update.activated" bundle.bundleId (activatedPayload store.active bundle) =
        .ok () ∨
      store.active = some bundle.bundleId ∧ store.Harmless bundle signature
  | .raises _ false => store.Harmless bundle signature
  | .raises _ true =>
    store.Harmless bundle signature ∧
      (store.active = some bundle.bundleId ∨
        store.active ≠ none ∧ answers.pointerReadAgain = .ok () ∧ ¬answers.restoring.Lost)

/-- From the staging on, an exception leaves the active bundle as it was. -/
def SyncAnswers.StagingKeeps : Prop :=
  match answers.staging with
  | .raises _ false => True
  | .raises _ true => store.Harmless bundle signature
  | .done =>
    (answers.Ready manager source store bundle signature ∨ store.Harmless bundle signature) ∧
    (answers.Ready manager source store bundle signature → answers.Undone store bundle signature)

/-- The condition on a call, for the bundle that it acquires. -/
def SyncAnswers.KeepsActive (injected : Option UpdateBundle) : Prop :=
  ∀ bundle signature, manager.acquire answers injected = .ok (bundle, signature) →
    answers.pointerRead = .ok () → answers.StagingKeeps manager source store bundle signature

variable {manager answers source store bundle signature}

/-- The active bundle of a store, and its content, are those of the other one. -/
def BundleStore.SameActive (store store' : BundleStore) : Prop :=
  store'.active = store.active ∧ store'.activeContent = store.activeContent

theorem BundleStore.SameActive.refl : store.SameActive store := ⟨rfl, rfl⟩

/-- A staged bundle is harmless exactly if what is active stays. -/
theorem sameActive_stage :
    store.SameActive (store.stage bundle signature) ↔ store.Harmless bundle signature := by
  unfold BundleStore.SameActive BundleStore.activeContent BundleStore.Harmless
  cases hactive : store.active with
  | none => simp [BundleStore.stage, hactive]
  | some active =>
    simp only [BundleStore.stage, hactive, Option.bind_some, Table.get?_put, UpdateBundle.row,
      true_and, Option.some.injEq]
    by_cases hid : active = bundle.bundleId
    · simp [hid, eq_comm]
    · simp [hid]

/-- After the activation, what was active stays if it was this bundle and staging was harmless. -/
theorem sameActive_activate :
    store.SameActive ((store.stage bundle signature).activate bundle.bundleId) ↔
      store.active = some bundle.bundleId ∧ store.Harmless bundle signature := by
  constructor
  · rintro ⟨hactive, hcontent⟩
    have hid : store.active = some bundle.bundleId := hactive.symm
    refine ⟨hid, sameActive_stage.mp ⟨rfl, ?_⟩⟩
    rw [← hcontent]
    simp [BundleStore.activeContent, BundleStore.activate, BundleStore.stage, hid]
  · rintro ⟨hid, hharmless⟩
    obtain ⟨-, hcontent⟩ := sameActive_stage.mpr hharmless
    refine ⟨hid.symm, ?_⟩
    rw [← hcontent]
    simp [BundleStore.activeContent, BundleStore.activate, BundleStore.stage, hid]

/-- After the first bundle is activated again, what was active stays if staging was harmless. -/
theorem sameActive_restored {previous : String} (h : store.active = some previous) :
    store.SameActive (((store.stage bundle signature).activate bundle.bundleId).activate previous) ↔
      store.Harmless bundle signature := by
  rw [← sameActive_stage]
  simp [BundleStore.SameActive, BundleStore.activeContent, BundleStore.activate, BundleStore.stage, h]

theorem prepare_eq_ok {store' : BundleStore} {u : Unit} :
    manager.prepare answers source store.active bundle signature (store.stage bundle signature) =
        (.ok u, store') ↔
      answers.Ready manager source store bundle signature ∧
        store.stage bundle signature = store' := by
  unfold UpdateManager.prepare SyncAnswers.Ready
  simp only [Call.bind_eq_ok, verify_eq_ok, checkSchema_eq_ok, preview_eq_ok, SyncAnswers.record,
    Call.ofExcept_eq_ok]
  constructor
  · rintro ⟨_, _, ⟨hverified, rfl⟩, _, _, ⟨hschema, rfl⟩, _, _, ⟨hread, rfl, rfl⟩, hrecorded, rfl⟩
    exact ⟨⟨hverified, hschema, hread, hrecorded⟩, rfl⟩
  · rintro ⟨⟨hverified, hschema, hread, hrecorded⟩, rfl⟩
    exact ⟨(), _, ⟨hverified, rfl⟩, (), _, ⟨hschema, rfl⟩, _, _, ⟨hread, rfl, rfl⟩, hrecorded, rfl⟩

theorem restore_of_error {previous error : String} {staged : BundleStore}
    (h : answers.pointerReadAgain = .error error) :
    (answers.restore (some previous) staged).2 = staged := by
  rw [SyncAnswers.restore, h, Call.bind_of_error readPointer_of_error]

/-- A pointer that has not moved stays where it is. -/
theorem restore_of_active {previous : Option String} {staged : BundleStore}
    (h : staged.active = previous) : (answers.restore previous staged).2 = staged := by
  cases previous with
  | none => rfl
  | some previous =>
    cases hread : answers.pointerReadAgain with
    | error error => exact restore_of_error hread
    | ok _ =>
      rw [SyncAnswers.restore, hread, Call.bind_of_ok readPointer_of_ok, if_pos h]
      rfl

theorem restore_of_ne {previous : String} {staged : BundleStore}
    (hread : answers.pointerReadAgain = .ok ()) (h : staged.active ≠ some previous) :
    answers.restore (some previous) staged =
      answers.restoring.call (fun store => store.activate previous) staged := by
  rw [SyncAnswers.restore, hread, Call.bind_of_ok readPointer_of_ok, if_neg h]

/-- Where the pointer has moved, the handler leads back exactly if the pointer already was at the
bundle, or the one before it can be activated again. -/
theorem sameActive_restore :
    store.SameActive
        (answers.restore store.active ((store.stage bundle signature).activate bundle.bundleId)).2 ↔
      store.Harmless bundle signature ∧
        (store.active = some bundle.bundleId ∨
          store.active ≠ none ∧ answers.pointerReadAgain = .ok () ∧ ¬answers.restoring.Lost) := by
  cases hactive : store.active with
  | none =>
    rw [SyncAnswers.restore, Call.pure_apply, sameActive_activate]
    simp [hactive]
  | some previous =>
    by_cases hid : previous = bundle.bundleId
    · rw [restore_of_active (by simp [BundleStore.activate, hid]), sameActive_activate]
      simp [hactive, hid]
    · have hmoved : ((store.stage bundle signature).activate bundle.bundleId).active ≠
          some previous := by
        simpa [BundleStore.activate] using fun heq => hid heq.symm
      cases hread : answers.pointerReadAgain with
      | error error =>
        rw [restore_of_error hread, sameActive_activate]
        simp [hactive, hid]
      | ok _ =>
        rw [restore_of_ne hread hmoved]
        cases hrestoring : answers.restoring with
        | done =>
          rw [BundleWrite.call_done, sameActive_restored hactive]
          simp [BundleWrite.Lost]
        | raises error kept =>
          rw [BundleWrite.call_raises]
          cases kept with
          | false =>
            rw [if_neg (by simp), sameActive_activate]
            simp [hactive, hid, BundleWrite.Lost]
          | true =>
            rw [if_pos rfl, sameActive_restored hactive]
            simp [BundleWrite.Lost]

theorem undo_raises (error : String) : (answers.undo store.active bundle error).Raises :=
  .of_rest fun _ => reject_raises _ _

theorem undo_raisesIn {error : String} {staged : BundleStore} :
    (answers.undo store.active bundle error).RaisesIn store.SameActive staged ↔
      store.SameActive (answers.restore store.active staged).2 := by
  rw [(undo_raises error).raisesIn_iff]
  exact iff_of_eq (congrArg _ (Call.bind_snd_of_silent fun _ => reject_silent _ _))

theorem activate_raisesIn :
    (answers.activate store.active bundle).RaisesIn store.SameActive (store.stage bundle signature) ↔
      answers.Undone store bundle signature := by
  unfold SyncAnswers.activate SyncAnswers.Undone
  have hevent (result : SyncResult) (staged : BundleStore) :
      (answers.record "update.activated" bundle (activatedPayload store.active bundle) >>= fun _ =>
        pure result).RaisesIn store.SameActive staged ↔
      answers.recorded "update.activated" bundle.bundleId (activatedPayload store.active bundle) =
          .ok () ∨ store.SameActive staged := by
    rw [((record_silent _ _).bind fun _ => .pure _).raisesIn_iff]
    simp [Call.bind_eq_ok, SyncAnswers.record, Call.ofExcept_eq_ok, Unique.exists_iff]
  cases answers.activation with
  | done =>
    rw [Call.raisesIn_bind_of_ok (Call.tryExcept_of_ok BundleWrite.call_done), hevent,
      sameActive_activate]
  | raises error kept =>
    rw [Call.raisesIn_tryExcept_bind BundleWrite.call_raises (undo_raises error), undo_raisesIn]
    cases kept with
    | false => rw [if_neg (by simp), restore_of_active BundleStore.active_stage,
        sameActive_stage]
    | true => rw [if_pos rfl, sameActive_restore]

/-- What follows the staging raises only where the active bundle is as it was. -/
theorem prepared_raisesIn :
    (manager.prepare answers source store.active bundle signature >>= fun _ =>
        answers.activate store.active bundle).RaisesIn store.SameActive
        (store.stage bundle signature) ↔
      (answers.Ready manager source store bundle signature ∨ store.Harmless bundle signature) ∧
      (answers.Ready manager source store bundle signature →
        answers.Undone store bundle signature) := by
  rw [Call.raisesIn_bind, prepare_silent.raisesIn_iff, sameActive_stage]
  simp only [prepare_eq_ok, and_true, exists_const, and_imp]
  refine and_congr_right fun _ => ⟨fun h hready => ?_, fun h _ _ hready hstore => ?_⟩
  · exact activate_raisesIn.mp (h () _ hready rfl)
  · subst hstore
    exact activate_raisesIn.mpr (h hready)

theorem staging_raisesIn :
    (answers.staging.call (fun store => store.stage bundle signature) >>= fun _ =>
        manager.prepare answers source store.active bundle signature >>= fun _ =>
          answers.activate store.active bundle).RaisesIn store.SameActive store ↔
      answers.StagingKeeps manager source store bundle signature := by
  unfold SyncAnswers.StagingKeeps
  cases answers.staging with
  | done => rw [Call.raisesIn_bind_of_ok BundleWrite.call_done, prepared_raisesIn]
  | raises error kept =>
    rw [Call.raisesIn_bind_of_error BundleWrite.call_raises]
    cases kept with
    | false => exact iff_of_true .refl trivial
    | true => rw [if_pos rfl, sameActive_stage]

/-- **A call that raises leaves the active bundle** and its content as they were, exactly under the
condition. -/
theorem sync_atomic_iff (injected : Option UpdateBundle) :
    (∀ error store', manager.sync answers source injected store = (.error error, store') →
      store'.active = store.active ∧ store'.activeContent = store.activeContent) ↔
      answers.KeepsActive manager source store injected := by
  change (manager.sync answers source injected).RaisesIn store.SameActive store ↔ _
  unfold UpdateManager.sync SyncAnswers.KeepsActive
  cases hacquire : manager.acquire answers injected with
  | error error =>
    rw [Call.raisesIn_bind_of_error Call.ofExcept_error]
    exact iff_of_true .refl (by simp)
  | ok acquired =>
    obtain ⟨bundle, signature⟩ := acquired
    rw [Call.raisesIn_bind_of_ok Call.ofExcept_ok]
    cases hpointer : answers.pointerRead with
    | error error =>
      rw [Call.raisesIn_bind_of_error readPointer_of_error]
      exact iff_of_true .refl (by simp)
    | ok _ =>
      rw [Call.raisesIn_bind_of_ok readPointer_of_ok]
      refine staging_raisesIn.trans ⟨?_, fun h => h _ _ rfl rfl⟩
      rintro h _ _ heq -
      cases heq
      exact h

end Atomic

/-- A store whose active bundle is `b-1`. -/
def oneActive : BundleStore where
  staged := Table.empty.put ⟨"b-1", "1", "digest-1", .empty, [1]⟩
  active := some "b-1"

/-- A delivery under the id `b-1`, with a signature that does not verify. -/
def forgedDelivery : SyncAnswers where
  fetched := .ok ([], [2])
  loads _ := .ok ⟨some "b-1", some "2", some "1", none⟩
  verified _ _ := .ok false

/-- A manager for schema `1`. -/
def schemaOne : UpdateManager where
  digest bundleId version _ _ := bundleId ++ "@" ++ version
  differs old new := old.dumps != new.dumps
  expectedSchema := "1"

/-- The delivery is rejected, and is what is active now. -/
theorem forged_delivery_active :
    ¬∀ error store', schemaOne.sync forgedDelivery "feed" none oneActive = (.error error, store') →
      store'.active = oneActive.active ∧ store'.activeContent = oneActive.activeContent := by
  intro h
  obtain ⟨-, hcontent⟩ := h _ _ rfl
  have hversions : some "2" = some "1" := congrArg (Option.map StagedBundle.version) hcontent
  exact absurd hversions (by decide)

end SecOpent
