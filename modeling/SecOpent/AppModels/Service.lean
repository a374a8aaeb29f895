import Mathlib.Data.Finset.Card
import Mathlib.Data.Finset.Image
import SecOpent.AppModels.Models
import SecOpent.Python.Call

/-!
# The lifecycle of application models

`AppModelService` of `application/appmodels.py`. A human validates a model and signs it; everybody may
create, edit and revise models. `create` and `createProposed` write whatever is there, and `update`
leaves a validated model validated.

## Main definitions

* `AppModelService`: `create`, `createProposed`, `update`, `revise`, `validate`, `sign`
* `nextVersion`: the version of a revision
* `AppModelAction`: an operation with its arguments
* `AppModelAction.Writes`: the models that an operation stores

## Main results

* `nextVersion_not_mem`: the version of a revision is new
* `update_eq_ok`, `revise_eq_ok`, `validate_eq_ok`, `sign_eq_ok`: when a call returns, and what it
  writes
* `update_clean` and the like: a call that raises writes nothing
* `call_cases`: a call raises and writes nothing, or stores the model that it returns
-/

namespace SecOpent

open Python

/-- `_VALID_TRANSITIONS`. -/
def AppModelStatus.transitions : AppModelStatus → List AppModelStatus
  | .draft => [.llmProposed, .humanValidated]
  | .llmProposed => [.humanValidated, .draft]
  | .humanValidated => [.signed]
  | .signed => [.published]
  | .published => [.superseded]
  | .superseded => []

/-- A `ModelSigner`, of the digest of a model. -/
abbrev ModelSigner := String → Except String String

/-- A call on the registry that returns a model. -/
abbrev AppModelCall := Call AppModelRegistry AppModelRecord

/-- `AppModelService`, with the digest of contents, and what it reads off Python's tables: digits, and
the `repr` of a text. -/
structure AppModelService where
  digest : ContentDigest
  unicode : Unicode
  repr : String → String

/-! ## The version of a revision -/

/-- A version that ends in a number. -/
def numberedVersion (start : Str) (n : ℕ) : String := String.ofList (start ++ Nat.toDigits 10 n)

/-- The text of a version that ends in a number, which `str` refuses to write with too many digits. -/
def versionText (start : Str) (n : ℕ) : Except String String :=
  if maxStrDigits < (Nat.toDigits 10 n).length then
    .error ("Exceeds the limit (4300 digits) for integer string conversion; " ++
      "use sys.set_int_max_str_digits() to increase the limit")
  else .ok (numberedVersion start n)

/-- `while candidate in existing`. With one round more than there are versions the loop ends. -/
def bumpVersion (existing : List String) (start : Str) : ℕ → ℕ → Except String String
  | 0, n => versionText start n
  | rounds + 1, n => do
    let candidate ← versionText start n
    if candidate ∈ existing then bumpVersion existing start rounds (n + 1) else .ok candidate

/-- A version before and after its last dot, which stays with the start. -/
def versionParts (current : Str) : Str × Str :=
  if '.' ∈ current then ((rpartition '.' current).1 ++ ['.'], (rpartition '.' current).2)
  else ([], current)

/-- What `int` says about digits that it does not read. -/
def intError (U : Unicode) (text : Str) : String :=
  if (text.mapM (digit U)).isSome then
    "Exceeds the limit (4300 digits) for integer string conversion: value has " ++
      String.ofList (Nat.toDigits 10 text.length) ++
      " digits; use sys.set_int_max_str_digits() to increase the limit"
  else "invalid literal for int() with base 10: '" ++ String.ofList text ++ "'"

/-- `_next_version`. -/
def nextVersion (U : Unicode) (existing : List String) (current : String) : Except String String :=
  let parts := versionParts current.toList
  if isDigit U parts.2 then
    -- Some digits are none that `int` reads.
    match int U parts.2 with
    | some n => bumpVersion existing parts.1 existing.length (n.toNat + 1)
    | none => .error (intError U parts.2)
  else bumpVersion existing (current.toList ++ ['.']) existing.length 1

theorem numberedVersion_inj {start : Str} {n n' : ℕ}
    (h : numberedVersion start n = numberedVersion start n') : n = n' := by
  have hdigits : Nat.toDigits 10 n = Nat.toDigits 10 n' := by
    simpa [numberedVersion, String.ofList_inj] using h
  rw [← Nat.ofDigitChars_ten_toDigits (n := n), hdigits, Nat.ofDigitChars_ten_toDigits]

theorem versionText_eq_ok {start : Str} {n : ℕ} {version : String} :
    versionText start n = .ok version ↔
      n < 10 ^ maxStrDigits ∧ version = numberedVersion start n := by
  have hlimit : ¬maxStrDigits < (Nat.toDigits 10 n).length ↔ n < 10 ^ maxStrDigits := by
    rw [not_lt, Nat.length_toDigits_le_iff (by decide) (by decide)]
  unfold versionText
  split
  next hlong => simp [← hlimit, hlong]
  next hshort => simp [hlimit.mp hshort, eq_comm]

/-- Some version is new among one more than there are. -/
theorem exists_numberedVersion_not_mem (existing : List String) (start : Str) (n : ℕ) :
    ∃ k ≤ existing.length, numberedVersion start (n + k) ∉ existing := by
  by_contra hall
  push Not at hall
  have hinj : Function.Injective fun k : ℕ => numberedVersion start (n + k) := by
    intro k k' heq
    have hsum : n + k = n + k' := numberedVersion_inj heq
    omega
  have hsubset : (Finset.range (existing.length + 1)).image (fun k => numberedVersion start (n + k)) ⊆
      existing.toFinset := by
    intro version hversion
    obtain ⟨k, hk, rfl⟩ := Finset.mem_image.mp hversion
    exact List.mem_toFinset.mpr (hall k (Nat.lt_succ_iff.mp (Finset.mem_range.mp hk)))
  have hcard := Finset.card_le_card hsubset
  rw [Finset.card_image_of_injective _ hinj, Finset.card_range] at hcard
  exact absurd (hcard.trans existing.toFinset_card_le) (by omega)

/-- **The loop returns the first version that is new**, if `str` writes it. -/
theorem bumpVersion_eq_ok {existing : List String} {start : Str} {rounds n : ℕ} {version : String}
    (hnew : ∃ k ≤ rounds, numberedVersion start (n + k) ∉ existing) :
    bumpVersion existing start rounds n = .ok version ↔
      ∃ k, n + k < 10 ^ maxStrDigits ∧ (∀ j < k, numberedVersion start (n + j) ∈ existing) ∧
        numberedVersion start (n + k) ∉ existing ∧ version = numberedVersion start (n + k) := by
  induction rounds generalizing n with
  | zero =>
    obtain ⟨_, hk, hnot⟩ := hnew
    obtain rfl := Nat.le_zero.mp hk
    rw [bumpVersion, versionText_eq_ok]
    constructor
    · rintro ⟨hlimit, rfl⟩
      exact ⟨0, hlimit, nofun, hnot, rfl⟩
    · rintro ⟨k, hlimit, hbefore, -, rfl⟩
      obtain rfl : k = 0 := by
        by_contra hpos
        exact hnot (hbefore 0 (Nat.pos_of_ne_zero hpos))
      exact ⟨hlimit, rfl⟩
  | succ rounds ih =>
    rw [bumpVersion, bind_eq_ok_iff]
    by_cases hmem : numberedVersion start n ∈ existing
    · -- The next round starts from the next number.
      have hlater : ∃ k ≤ rounds, numberedVersion start (n + 1 + k) ∉ existing := by
        obtain ⟨k, hk, hnot⟩ := hnew
        cases k with
        | zero => exact absurd hmem hnot
        | succ k => exact ⟨k, Nat.le_of_succ_le_succ hk, by rwa [Nat.add_right_comm]⟩
      constructor
      · rintro ⟨candidate, hcandidate, hrest⟩
        obtain ⟨-, rfl⟩ := versionText_eq_ok.mp hcandidate
        rw [if_pos hmem, ih hlater] at hrest
        obtain ⟨k, hlimit, hbefore, hnot, rfl⟩ := hrest
        rw [Nat.add_right_comm] at hlimit hnot ⊢
        refine ⟨k + 1, hlimit, fun j hj => ?_, hnot, rfl⟩
        cases j with
        | zero => exact hmem
        | succ j =>
          have hj' := hbefore j (Nat.lt_of_succ_lt_succ hj)
          rwa [Nat.add_right_comm] at hj'
      · rintro ⟨k, hlimit, hbefore, hnot, rfl⟩
        refine ⟨_, versionText_eq_ok.mpr ⟨(Nat.le_add_right n k).trans_lt hlimit, rfl⟩, ?_⟩
        rw [if_pos hmem, ih hlater]
        cases k with
        | zero => exact absurd hmem hnot
        | succ k =>
          refine ⟨k, by rwa [Nat.add_right_comm], fun j hj => ?_, by rwa [Nat.add_right_comm],
            by rw [Nat.add_right_comm]; rfl⟩
          rw [Nat.add_right_comm]
          exact hbefore (j + 1) (Nat.succ_lt_succ hj)
    · constructor
      · rintro ⟨candidate, hcandidate, hrest⟩
        obtain ⟨hlimit, rfl⟩ := versionText_eq_ok.mp hcandidate
        rw [if_neg hmem] at hrest
        cases hrest
        exact ⟨0, hlimit, nofun, hmem, rfl⟩
      · rintro ⟨k, hlimit, hbefore, -, rfl⟩
        obtain rfl : k = 0 := by
          by_contra hpos
          exact hmem (hbefore 0 (Nat.pos_of_ne_zero hpos))
        exact ⟨_, versionText_eq_ok.mpr ⟨hlimit, rfl⟩, if_neg hmem⟩

/-- The loop returns exactly if some later version is new, and short enough to be written. -/
theorem exists_bumpVersion_iff {existing : List String} {start : Str} {n : ℕ} :
    (∃ version, bumpVersion existing start existing.length n = .ok version) ↔
      ∃ m, n ≤ m ∧ m < 10 ^ maxStrDigits ∧ numberedVersion start m ∉ existing := by
  have hnew := exists_numberedVersion_not_mem existing start n
  simp only [bumpVersion_eq_ok hnew]
  constructor
  · rintro ⟨_, k, hlimit, -, hnot, -⟩
    exact ⟨n + k, Nat.le_add_right n k, hlimit, hnot⟩
  · rintro ⟨m, hle, hlimit, hnot⟩
    obtain ⟨k, rfl⟩ := Nat.exists_eq_add_of_le hle
    -- The first of the new versions is not longer.
    have hexists : ∃ k, numberedVersion start (n + k) ∉ existing := ⟨k, hnot⟩
    refine ⟨_, Nat.find hexists, ?_, fun j hj => ?_, Nat.find_spec hexists, rfl⟩
    · have hfirst := Nat.find_min' hexists hnot
      omega
    · exact not_not.mp (Nat.find_min hexists hj)

theorem bumpVersion_not_mem {existing : List String} {start : Str} {n : ℕ} {version : String}
    (h : bumpVersion existing start existing.length n = .ok version) : version ∉ existing := by
  obtain ⟨k, -, -, hnot, rfl⟩ :=
    (bumpVersion_eq_ok (exists_numberedVersion_not_mem existing start n)).mp h
  exact hnot

/-- The version of a revision is new. -/
theorem nextVersion_not_mem {U : Unicode} {existing : List String} {current version : String}
    (h : nextVersion U existing current = .ok version) : version ∉ existing := by
  simp only [nextVersion] at h
  split at h
  · split at h
    · exact bumpVersion_not_mem h
    · cases h
  · exact bumpVersion_not_mem h

/-! ## The operations -/

namespace AppModelService

variable (service : AppModelService)

/-- `registry.put`. -/
def put (model : AppModelRecord) : Call AppModelRegistry Unit := fun registry =>
  (.ok (), registry.put model)

/-- `get`. -/
def get (appId version : String) : AppModelCall := fun registry =>
  match registry.get? (appId, version) with
  | some model => (.ok model, registry)
  | none => (.error ("app model not found: " ++ appId ++ "@" ++ version), registry)

/-- `create`. -/
def create (model : AppModelRecord) (proposed : Bool) : AppModelCall := do
  let draft := model.moved (if proposed then .llmProposed else .draft)
  put draft
  pure draft

/-- `create_proposed`. -/
def createProposed (model : AppModelRecord) : AppModelCall := do
  put (model.moved .llmProposed)
  pure (model.moved .llmProposed)

/-- The check of `update`. -/
def checkEditable (existing : AppModelRecord) : Call AppModelRegistry Unit :=
  if existing.status ∈ [AppModelStatus.draft, .humanValidated] then pure ()
  else .raise ("cannot edit a " ++ existing.status.value ++
    " model in place; create a new version via revise")

/-- `update`. -/
def update (content : AppModelContent) : AppModelCall := do
  let existing ← get content.appId content.version
  checkEditable existing
  -- The status is that of the model that is edited, so a validated model stays validated.
  put (.construct service.digest content existing.status)
  pure (.construct service.digest content existing.status)

/-- The content under another version. -/
def reversioned (content : AppModelContent) (version : String) (h : version ≠ "") :
    AppModelContent :=
  { content with version, version_ne := h }

/-- `new_version or self._next_version(…)`. -/
def targetVersion (existing : List String) (current : String) (newVersion : Option String) :
    Except String String :=
  match newVersion.filter (· ≠ "") with
  | some version => .ok version
  | none => nextVersion service.unicode existing current

/-- The version that `revise` writes, which must not be there. -/
def revisedVersion (existing : List String) (content : AppModelContent)
    (newVersion : Option String) : Except String String := do
  let target ← service.targetVersion existing content.version newVersion
  if target ∈ existing then
    .error ("version " ++ target ++ " already exists for " ++ content.appId)
  else .ok target

/-- `AppModel(…)` of a revision. -/
def construct (content : AppModelContent) (version : String) : Except String AppModelRecord :=
  if h : version = "" then .error "AppModel.version must be non-empty"
  else .ok (.construct service.digest (reversioned content version h) .draft)

/-- `revise`. -/
def revise (content : AppModelContent) (newVersion : Option String) : AppModelCall := do
  let _ ← get content.appId content.version
  let existing ← .read (AppModelRegistry.versionsOf · content.appId)
  let version ← .ofExcept id (service.revisedVersion existing content newVersion)
  let revised ← .ofExcept id (service.construct content version)
  put revised
  pure revised

/-- `_check_transition`. -/
def checkTransition (model : AppModelRecord) (toStatus : AppModelStatus) :
    Call AppModelRegistry Unit :=
  if toStatus ∈ model.status.transitions then pure ()
  else .raise ("app model " ++ model.content.appId ++ "@" ++ model.content.version ++
    ": cannot transition " ++ model.status.value ++ " -> " ++ toStatus.value)

/-- `_require_human`. -/
def requireHuman (actorRole : String) : Call AppModelRegistry Unit :=
  if actorRole = "agent" then
    .raise "agents cannot validate or sign app models (human-only action)"
  else if actorRole ≠ "human" then .raise ("unknown actor role: " ++ service.repr actorRole)
  else pure ()

/-- `validate`. -/
def validate (appId version actorRole : String) : AppModelCall := do
  service.requireHuman actorRole
  let model ← get appId version
  checkTransition model .humanValidated
  put (model.moved .humanValidated)
  pure (model.moved .humanValidated)

/-- `sign`. -/
def sign (appId version : String) (signer : ModelSigner) (actorRole : String) : AppModelCall := do
  service.requireHuman actorRole
  let model ← get appId version
  checkTransition model .signed
  let signature ← .ofExcept id (signer model.digest)
  put (model.withSignature signature)
  pure (model.withSignature signature)

end AppModelService

/-! ## What a call writes -/

section Writes

open AppModelService

variable {service : AppModelService} {registry after : AppModelRegistry}
  {model new : AppModelRecord} {content : AppModelContent} {appId version actorRole : String}
  {status toStatus : AppModelStatus}

theorem AppModelStatus.humanValidated_mem : .humanValidated ∈ status.transitions ↔
    status = .draft ∨ status = .llmProposed := by
  cases status <;> simp [AppModelStatus.transitions]

theorem AppModelStatus.signed_mem : .signed ∈ status.transitions ↔ status = .humanValidated := by
  cases status <;> simp [AppModelStatus.transitions]

namespace AppModelService

theorem get_eq_ok : get appId version registry = (.ok model, after) ↔
    registry.get? (appId, version) = some model ∧ registry = after := by
  unfold get
  cases registry.get? (appId, version) with
  | none => simp
  | some found => simp

theorem get_silent : (get appId version).Silent := by
  intro registry
  unfold get
  cases registry.get? (appId, version) with
  | none => rfl
  | some found => rfl

theorem checkTransition_eq_ok {u : Unit} :
    checkTransition model toStatus registry = (.ok u, after) ↔
      toStatus ∈ model.status.transitions ∧ registry = after := by
  unfold checkTransition
  split
  next h => simp [h]
  next h => simp [h]

theorem checkTransition_silent : (checkTransition model toStatus).Silent := by
  unfold checkTransition
  split
  · exact .pure _
  · exact .raise _

theorem checkEditable_eq_ok {u : Unit} :
    checkEditable model registry = (.ok u, after) ↔
      (model.status = .draft ∨ model.status = .humanValidated) ∧ registry = after := by
  unfold checkEditable
  split
  next h =>
    have hstatus : model.status = .draft ∨ model.status = .humanValidated := by simpa using h
    simp [hstatus]
  next h =>
    have hstatus : ¬(model.status = .draft ∨ model.status = .humanValidated) := by simpa using h
    simp [hstatus]

theorem checkEditable_silent : (checkEditable model).Silent := by
  unfold checkEditable
  split
  · exact .pure _
  · exact .raise _

theorem requireHuman_eq_ok {u : Unit} : service.requireHuman actorRole registry = (.ok u, after) ↔
    actorRole = "human" ∧ registry = after := by
  unfold requireHuman
  split
  next h => simp [h]
  next =>
    split
    next h => simp [h]
    next h => simp [not_not.mp h]

theorem requireHuman_silent : (service.requireHuman actorRole).Silent := by
  unfold requireHuman
  split
  · exact .raise _
  · split
    · exact .raise _
    · exact .pure _

/-- A draft or a validated model is edited in place, and stays what it is. -/
theorem update_eq_ok : service.update content registry = (.ok new, after) ↔
    ∃ old, registry.get? (content.appId, content.version) = some old ∧
      (old.status = .draft ∨ old.status = .humanValidated) ∧
      new = .construct service.digest content old.status ∧ after = registry.put new := by
  unfold update
  simp only [Call.bind_eq_ok, get_eq_ok, checkEditable_eq_ok]
  constructor
  · rintro ⟨old, _, ⟨hget, rfl⟩, _, _, ⟨hstatus, rfl⟩, _, _, hput, hpure⟩
    cases hput
    cases hpure
    exact ⟨old, hget, hstatus, rfl, rfl⟩
  · rintro ⟨old, hget, hstatus, rfl, rfl⟩
    exact ⟨old, registry, ⟨hget, rfl⟩, (), registry, ⟨hstatus, rfl⟩, (), _, rfl, rfl⟩

theorem update_clean : (service.update content).Clean :=
  get_silent.bind_clean fun _ => checkEditable_silent.bind_clean fun _ =>
    Call.Returns.clean fun _ => ⟨_, _, rfl⟩

theorem revisedVersion_not_mem {existing : List String} {newVersion : Option String}
    (h : service.revisedVersion existing content newVersion = .ok version) :
    version ∉ existing := by
  obtain ⟨target, -, h⟩ := bind_eq_ok_iff.mp h
  split at h
  · cases h
  next hnot =>
    cases h
    exact hnot

/-- A revision is a draft under a version that is new. -/
theorem revise_eq_ok {newVersion : Option String}
    (h : service.revise content newVersion registry = (.ok new, after)) :
    registry.get? new.key = none ∧ new.status = .draft ∧ new.Described service.digest ∧
      after = registry.put new := by
  obtain ⟨_, _, hget, h⟩ := Call.bind_eq_ok.mp h
  obtain ⟨-, rfl⟩ := get_eq_ok.mp hget
  obtain ⟨existing, _, hread, h⟩ := Call.bind_eq_ok.mp h
  cases hread
  obtain ⟨version, _, hversion, h⟩ := Call.bind_eq_ok.mp h
  obtain ⟨htarget, rfl⟩ := Call.ofExcept_eq_ok.mp hversion
  obtain ⟨revised, _, hconstruct, h⟩ := Call.bind_eq_ok.mp h
  obtain ⟨hrevised, rfl⟩ := Call.ofExcept_eq_ok.mp hconstruct
  obtain ⟨_, _, hput, hpure⟩ := Call.bind_eq_ok.mp h
  cases hput
  cases hpure
  unfold construct at hrevised
  split at hrevised
  · cases hrevised
  next hne =>
    cases hrevised
    have hnew := revisedVersion_not_mem htarget
    rw [AppModelRegistry.mem_versionsOf, not_not] at hnew
    exact ⟨hnew, rfl, rfl, rfl⟩

theorem revise_clean {newVersion : Option String} : (service.revise content newVersion).Clean :=
  get_silent.bind_clean fun _ => (Call.Silent.read _).bind_clean fun _ =>
    (Call.Silent.ofExcept _ _).bind_clean fun _ => (Call.Silent.ofExcept _ _).bind_clean fun _ =>
      Call.Returns.clean fun _ => ⟨_, _, rfl⟩

/-- A human validates a draft, or what a model proposed. -/
theorem validate_eq_ok : service.validate appId version actorRole registry = (.ok new, after) ↔
    ∃ old, actorRole = "human" ∧ registry.get? (appId, version) = some old ∧
      (old.status = .draft ∨ old.status = .llmProposed) ∧ new = old.moved .humanValidated ∧
      after = registry.put new := by
  unfold validate
  simp only [Call.bind_eq_ok, requireHuman_eq_ok, get_eq_ok, checkTransition_eq_ok,
    AppModelStatus.humanValidated_mem]
  constructor
  · rintro ⟨_, _, ⟨hhuman, rfl⟩, old, _, ⟨hget, rfl⟩, _, _, ⟨hstatus, rfl⟩, _, _, hput, hpure⟩
    cases hput
    cases hpure
    exact ⟨old, hhuman, hget, hstatus, rfl, rfl⟩
  · rintro ⟨old, hhuman, hget, hstatus, rfl, rfl⟩
    exact ⟨(), registry, ⟨hhuman, rfl⟩, old, registry, ⟨hget, rfl⟩, (), registry, ⟨hstatus, rfl⟩,
      (), _, rfl, rfl⟩

theorem validate_clean : (service.validate appId version actorRole).Clean :=
  requireHuman_silent.bind_clean fun _ => get_silent.bind_clean fun _ =>
    checkTransition_silent.bind_clean fun _ => Call.Returns.clean fun _ => ⟨_, _, rfl⟩

/-- A human signs the digest of a validated model. -/
theorem sign_eq_ok {signer : ModelSigner} :
    service.sign appId version signer actorRole registry = (.ok new, after) ↔
      ∃ old signature, actorRole = "human" ∧ registry.get? (appId, version) = some old ∧
        old.status = .humanValidated ∧ signer old.digest = .ok signature ∧
        new = old.withSignature signature ∧ after = registry.put new := by
  unfold sign
  simp only [Call.bind_eq_ok, requireHuman_eq_ok, get_eq_ok, checkTransition_eq_ok,
    Call.ofExcept_eq_ok, AppModelStatus.signed_mem]
  constructor
  · rintro ⟨_, _, ⟨hhuman, rfl⟩, old, _, ⟨hget, rfl⟩, _, _, ⟨hstatus, rfl⟩, signature, _,
      ⟨hsigner, rfl⟩, _, _, hput, hpure⟩
    cases hput
    cases hpure
    exact ⟨old, signature, hhuman, hget, hstatus, hsigner, rfl, rfl⟩
  · rintro ⟨old, signature, hhuman, hget, hstatus, hsigner, rfl, rfl⟩
    exact ⟨(), registry, ⟨hhuman, rfl⟩, old, registry, ⟨hget, rfl⟩, (), registry, ⟨hstatus, rfl⟩,
      signature, registry, ⟨hsigner, rfl⟩, (), _, rfl, rfl⟩

theorem sign_clean {signer : ModelSigner} :
    (service.sign appId version signer actorRole).Clean :=
  requireHuman_silent.bind_clean fun _ => get_silent.bind_clean fun _ =>
    checkTransition_silent.bind_clean fun _ => (Call.Silent.ofExcept _ _).bind_clean fun _ =>
      Call.Returns.clean fun _ => ⟨_, _, rfl⟩

end AppModelService

end Writes

/-! ## The operations as one -/

/-- An operation of the service with its arguments. -/
inductive AppModelAction
  | create (model : AppModelRecord) (proposed : Bool)
  | createProposed (model : AppModelRecord)
  | update (content : AppModelContent)
  | revise (content : AppModelContent) (newVersion : Option String)
  | validate (appId version actorRole : String)
  | sign (appId version : String) (signer : ModelSigner) (actorRole : String)

namespace AppModelAction

variable (service : AppModelService)

/-- The call. -/
def call : AppModelAction → AppModelCall
  | .create model proposed => AppModelService.create model proposed
  | .createProposed model => AppModelService.createProposed model
  | .update content => service.update content
  | .revise content newVersion => service.revise content newVersion
  | .validate appId version actorRole => service.validate appId version actorRole
  | .sign appId version signer actorRole => service.sign appId version signer actorRole

/-- The models that an operation stores. -/
inductive Writes (registry : AppModelRegistry) : AppModelAction → AppModelRecord → Prop
  | created (model : AppModelRecord) (proposed : Bool) :
      Writes registry (.create model proposed)
        (model.moved (if proposed then .llmProposed else .draft))
  | proposed (model : AppModelRecord) :
      Writes registry (.createProposed model) (model.moved .llmProposed)
  | updated {content : AppModelContent} {old : AppModelRecord} :
      registry.get? (content.appId, content.version) = some old →
      old.status = .draft ∨ old.status = .humanValidated →
      Writes registry (.update content) (.construct service.digest content old.status)
  | revised {content : AppModelContent} {newVersion : Option String} {new : AppModelRecord} :
      registry.get? new.key = none → new.status = .draft → new.Described service.digest →
      Writes registry (.revise content newVersion) new
  | validated {appId version : String} {old : AppModelRecord} :
      registry.get? (appId, version) = some old →
      old.status = .draft ∨ old.status = .llmProposed →
      Writes registry (.validate appId version "human") (old.moved .humanValidated)
  | signed {appId version signature : String} {signer : ModelSigner} {old : AppModelRecord} :
      registry.get? (appId, version) = some old → old.status = .humanValidated →
      signer old.digest = .ok signature →
      Writes registry (.sign appId version signer "human") (old.withSignature signature)

variable {service} {registry : AppModelRegistry} {action : AppModelAction}

theorem cases_of_clean {x : AppModelCall} (hclean : x.Clean)
    (hok : ∀ new after, x registry = (.ok new, after) →
      action.Writes service registry new ∧ after = registry.put new) :
    (∃ error, x registry = (.error error, registry)) ∨
      ∃ new, action.Writes service registry new ∧ x registry = (.ok new, registry.put new) := by
  rcases hx : x registry with ⟨⟨error⟩ | new, after⟩
  · have hsame : after = registry := hclean registry _ _ hx
    exact .inl ⟨error, by rw [hsame]⟩
  · obtain ⟨hwrites, rfl⟩ := hok new after hx
    exact .inr ⟨new, hwrites, rfl⟩

/-- **A call raises and writes nothing, or stores the model that it returns.** -/
theorem call_cases (service : AppModelService) (registry : AppModelRegistry)
    (action : AppModelAction) :
    (∃ error, action.call service registry = (.error error, registry)) ∨
      ∃ new, action.Writes service registry new ∧
        action.call service registry = (.ok new, registry.put new) := by
  cases action with
  | create model proposed => exact .inr ⟨_, .created model proposed, rfl⟩
  | createProposed model => exact .inr ⟨_, .proposed model, rfl⟩
  | update content =>
    refine cases_of_clean AppModelService.update_clean fun new after h => ?_
    obtain ⟨old, hget, hstatus, rfl, rfl⟩ := AppModelService.update_eq_ok.mp h
    exact ⟨.updated hget hstatus, rfl⟩
  | revise content newVersion =>
    refine cases_of_clean AppModelService.revise_clean fun new after h => ?_
    obtain ⟨hnew, hstatus, hdescribed, rfl⟩ := AppModelService.revise_eq_ok h
    exact ⟨.revised hnew hstatus hdescribed, rfl⟩
  | validate appId version actorRole =>
    refine cases_of_clean AppModelService.validate_clean fun new after h => ?_
    obtain ⟨old, rfl, hget, hstatus, rfl, rfl⟩ := AppModelService.validate_eq_ok.mp h
    exact ⟨.validated hget hstatus, rfl⟩
  | sign appId version signer actorRole =>
    refine cases_of_clean AppModelService.sign_clean fun new after h => ?_
    obtain ⟨old, signature, rfl, hget, hstatus, hsigner, rfl, rfl⟩ :=
      AppModelService.sign_eq_ok.mp h
    exact ⟨.signed hget hstatus hsigner, rfl⟩

theorem call_clean : (action.call service).Clean := by
  intro registry error after h
  rcases call_cases service registry action with ⟨_, hcall⟩ | ⟨_, _, hcall⟩
  · cases hcall.symm.trans h
    rfl
  · cases hcall.symm.trans h

theorem call_stores {new : AppModelRecord} {after : AppModelRegistry}
    (h : action.call service registry = (.ok new, after)) : after = registry.put new := by
  rcases call_cases service registry action with ⟨_, hcall⟩ | ⟨_, _, hcall⟩
  · cases hcall.symm.trans h
  · cases hcall.symm.trans h
    rfl

end AppModelAction

end SecOpent
