import Mathlib.Logic.Relation
import Mathlib.Logic.Function.Basic
import SecOpent.Keys.Service
import SecOpent.Transition.Conditions

/-!
# Rotations of signing keys

The histories of a key service, with restarts. An archived key signs when it is asked for by its id, and
`ensure_default_key` does not know that the key it returned has a successor, which has another name. The
reference of a key is a truncated digest, under which an earlier key may be listed.

## Main definitions

* `KeyHistory`: the service, and what happened
* `KeyHistory.Kept`: the keys that are listed are the keys that were created
* `SignsArchived`, `EnsuresRotated`, `Collides`: the calls that go wrong

## Main results

* `kept_step`: the listing is kept until two keys have one reference
* `signsActive_iff`, `returnsSuccessor_iff`, `listed_step_iff`: what each condition is exact for
* `keys_rotate_cleanly_iff`: exactly when keys rotate cleanly
-/

namespace SecOpent

open Python Transition

/-- A call on the service, with the reading of the clock and what `generate` returns, or a restart. -/
inductive KeyAction
  | createKey (name : String) (now : DateTime) (pair : KeyPair)
  | ensureDefaultKey (name : String) (now : DateTime) (pair : KeyPair)
  | rotate (oldKeyId : String) (now : DateTime) (pair : KeyPair)
  | signerFor (keyId : Option String)
  | restart

namespace KeyAction

/-- The reading of the clock. -/
def reading? : KeyAction → Option DateTime
  | .createKey _ now _ | .ensureDefaultKey _ now _ | .rotate _ now _ => some now
  | .signerFor _ | .restart => none

variable (service : SigningKeyService) (store : SigningKeys)

/-- What the service keeps after the call. -/
def after : KeyAction → SigningKeys
  | .createKey name now pair => (service.createKey name now pair store).2
  | .ensureDefaultKey name now pair => (service.ensureDefaultKey name now pair store).2
  | .rotate oldKeyId now pair => (service.rotate oldKeyId now pair store).2
  | .signerFor _ => store
  | .restart => store.restart

/-- The key that the call creates. -/
def created? : KeyAction → Option SigningKeyInfo
  | .createKey name now pair => some (service.newKey name now pair)
  | .ensureDefaultKey name now pair =>
    if (store.named? name).isSome then none else some (service.newKey name now pair)
  | .rotate oldKeyId now pair =>
    (store.keys.get? oldKeyId).map fun old => service.newKey (old.name ++ "-next") now pair
  | .signerFor _ | .restart => none

/-- The rotation that the call is: the key, and its successor. -/
def rotation? (action : KeyAction) : Option (String × String) :=
  match action with
  | .rotate oldKeyId _ _ => (action.created? service store).map fun new => (oldKeyId, new.keyId)
  | _ => none

/-- What `ensure_default_key` returns, with the name. -/
def ensured? : KeyAction → Option (String × SigningKeyInfo)
  | .ensureDefaultKey name now pair =>
    some (name, (store.named? name).getD (service.newKey name now pair))
  | _ => none

end KeyAction

/-- What a service keeps, with the readings of the clock so far, the keys that were created, the
rotations, and the key that `ensure_default_key` first returned for each name. -/
structure KeyHistory where
  store : SigningKeys := {}
  readings : List DateTime := []
  created : List SigningKeyInfo := []
  rotations : List (String × String) := []
  first : String → Option String := fun _ => none

namespace KeyHistory

/-- The keys that were rotated. -/
def rotated (history : KeyHistory) : List String := history.rotations.map Prod.fst

/-- The keys that a name was first ensured by. -/
def firstAfter (first : String → Option String) :
    Option (String × SigningKeyInfo) → String → Option String
  | none => first
  | some (name, info) =>
    if (first name).isSome then first else Function.update first name (some info.keyId)

/-- A call at a reading of the clock that was not used before. -/
def step (service : SigningKeyService) (history : KeyHistory) (action : KeyAction) :
    Option KeyHistory :=
  if action.reading?.any (history.readings.contains ·) then none
  else some
    { store := action.after service history.store
      readings := history.readings ++ action.reading?.toList
      created := history.created ++ (action.created? service history.store).toList
      rotations := history.rotations ++ (action.rotation? service history.store).toList
      first := firstAfter history.first (action.ensured? service history.store) }

/-! ## What is said of a run -/

/-- Every key that was created is listed with its public key. -/
def Listed (history : KeyHistory) : Prop :=
  ∀ info ∈ history.created, ∃ listed ∈ history.store.listKeys, listed.keyId = info.keyId ∧
    listed.publicKey = info.publicKey ∧ listed.createdAt = info.createdAt

/-- A signer is one of a key that was not rotated. -/
def SignsActive (service : SigningKeyService) (history : KeyHistory) : KeyAction → Prop
  | .signerFor keyId => ∀ target signer, history.store.signingKey keyId = .ok target →
      service.signerFor keyId history.store = .ok signer → target ∉ history.rotated
  | _ => True

/-- A key descends from another one by rotations. -/
def Descends (history : KeyHistory) : String → String → Prop :=
  Relation.ReflTransGen fun old new => (old, new) ∈ history.rotations

/-- `ensure_default_key`, when it is called again for a name, creates no key and returns an active key
that descends from the one that it first returned. -/
def ReturnsSuccessor (service : SigningKeyService) (history : KeyHistory) : KeyAction → Prop
  | .ensureDefaultKey name now pair => ∀ keyId, history.first name = some keyId →
      ∃ info, service.ensureDefaultKey name now pair history.store = (.ok info, history.store) ∧
        info.archived = false ∧ history.Descends keyId info.keyId
  | _ => True

/-- What is said of a call: its signer is active, a name that is ensured again is ensured by the active
successor of its first key, and every key stays listed. -/
structure RotatesCleanly (service : SigningKeyService) (history : KeyHistory) (action : KeyAction) :
    Prop where
  signs : SignsActive service history action
  returns : ReturnsSuccessor service history action
  listed : ∀ next, step service history action = some next → next.Listed

/-! ## The calls that go wrong -/

/-- A signer is asked for by the id of an archived key. -/
def SignsArchived (history : KeyHistory) : KeyAction → Prop
  | .signerFor (some keyId) => keyId ≠ "" ∧ keyId ∈ history.rotated
  | _ => False

/-- A name is ensured whose first key was rotated. -/
def EnsuresRotated (history : KeyHistory) : KeyAction → Prop
  | .ensureDefaultKey name _ _ => ∃ keyId ∈ history.rotated, history.first name = some keyId
  | _ => False

/-- The key that the call creates has the reference of a listed key. -/
def Collides (service : SigningKeyService) (history : KeyHistory) (action : KeyAction) : Prop :=
  (step service history action).isSome ∧ ∃ new, action.created? service history.store = some new ∧
    history.store.keys.get? new.keyId ≠ none

/-! ## What is kept -/

/-- A key as it is listed: archived once it was rotated. -/
def mark (history : KeyHistory) (info : SigningKeyInfo) : SigningKeyInfo :=
  { info with archived := decide (info.keyId ∈ history.rotated) }

/-- The keys that are listed are the keys that were created, in their order and each with its secret,
and the file holds them. A rotation gives the successor a longer name, and before the key that a name
was first ensured by, the keys with the name are rotated. -/
structure Kept (history : KeyHistory) : Prop where
  items : history.store.keys.items =
    history.created.map fun info => (info.keyId, history.mark info)
  metadata : SigningKeys.loadMetadata history.store.metadata = history.store.keys
  secrets : ∀ info ∈ history.created, history.store.backend.get? info.keyId ≠ none
  readings : ∀ info ∈ history.created, info.createdAt ∈ history.readings
  rotations : ∀ old new, (old, new) ∈ history.rotations → ∃ a ∈ history.created,
    ∃ b ∈ history.created, a.keyId = old ∧ b.keyId = new ∧ b.name = a.name ++ "-next"
  first : ∀ name keyId, history.first name = some keyId → ∃ before info later,
    history.created = before ++ info :: later ∧ info.keyId = keyId ∧ info.name = name ∧
      ∀ other ∈ before, other.name = name → other.keyId ∈ history.rotated

section Histories

variable {service : SigningKeyService} {history next : KeyHistory} {action : KeyAction}
  {keyId name oldKeyId : String} {now : DateTime} {pair : KeyPair} {info info' : SigningKeyInfo}

theorem kept_empty : Kept {} where
  items := rfl
  metadata := rfl
  secrets := nofun
  readings := nofun
  rotations := nofun
  first := nofun

theorem get?_iff (hkept : history.Kept) : history.store.keys.get? keyId = some info ↔
    ∃ created ∈ history.created, created.keyId = keyId ∧ history.mark created = info := by
  rw [← Dict.mem_items_iff, hkept.items]
  simp only [List.mem_map, Prod.mk.injEq]

theorem get?_of_created (hkept : history.Kept) (h : info ∈ history.created) :
    history.store.keys.get? info.keyId = some (history.mark info) :=
  (get?_iff hkept).mpr ⟨info, h, rfl, rfl⟩

theorem nodup_created (hkept : history.Kept) : (history.created.map (·.keyId)).Nodup := by
  have hnodup := history.store.keys.keys_nodup
  rw [hkept.items, List.map_map] at hnodup
  exact hnodup

theorem values_eq (hkept : history.Kept) :
    history.store.keys.values = history.created.map history.mark := by
  rw [Dict.values, hkept.items, List.map_map]
  rfl

/-- A key that was rotated is listed. -/
theorem exists_of_rotated (hkept : history.Kept) (h : keyId ∈ history.rotated) :
    ∃ info ∈ history.created, info.keyId = keyId := by
  obtain ⟨⟨old, new⟩, hmem, rfl⟩ := List.mem_map.mp h
  obtain ⟨a, ha, -, -, hkey, -⟩ := hkept.rotations old new hmem
  exact ⟨a, ha, hkey⟩

/-! ## One call -/

/-- A key with a new reference joins the keys that are listed. -/
theorem kept_create (hkept : history.Kept)
    (hnew : history.store.keys.get? (service.newKey name now pair).keyId = none) :
    Kept { history with
      store := (service.createKey name now pair history.store).2
      readings := history.readings ++ [now]
      created := history.created ++ [service.newKey name now pair] } := by
  have hkey : (service.newKey name now pair).keyId ∉ history.store.keys.items.map Prod.fst := by
    intro hmem
    obtain ⟨⟨key, info⟩, hitem, hkey⟩ := List.mem_map.mp hmem
    rw [← hkey] at hnew
    exact absurd (Dict.mem_items_iff.mp hitem) (by rw [hnew]; exact nofun)
  -- Rotated keys are listed, so a key that is not listed is marked as active.
  have hactive : (service.newKey name now pair).keyId ∉ history.rotated := by
    intro hrotated
    obtain ⟨info, hmem, hid⟩ := exists_of_rotated hkept hrotated
    rw [← hid, get?_of_created hkept hmem] at hnew
    cases hnew
  have hmark : history.mark (service.newKey name now pair) = service.newKey name now pair := by
    simp only [mark, hactive, decide_false]
    rfl
  have hitems : (service.createKey name now pair history.store).2.keys.items =
      (history.created ++ [service.newKey name now pair]).map fun info =>
        (info.keyId, history.mark info) := by
    rw [List.map_append, ← hkept.items, List.map_singleton, hmark]
    exact Dict.assign_of_notMem hkey
  refine ⟨hitems, SigningKeys.loadMetadata_values ?_, ?_, ?_, ?_, ?_⟩
  · intro item hitem
    change item ∈ (service.createKey name now pair history.store).2.keys.items at hitem
    rw [hitems] at hitem
    obtain ⟨info, -, rfl⟩ := List.mem_map.mp hitem
    rfl
  · intro info hinfo
    rcases List.mem_append.mp hinfo with hold | hnew
    · exact SecretStore.get?_register_ne_none (hkept.secrets info hold)
    · obtain rfl := List.mem_singleton.mp hnew
      have hget : (service.secrets.register name pair.privateMaterial now
          history.store.backend).2.get? (service.newKey name now pair).keyId =
            some pair.privateMaterial := SecretStore.get?_register
      exact fun hnone => absurd (hget.symm.trans hnone) nofun
  · intro info hinfo
    rcases List.mem_append.mp hinfo with hold | hnew
    · exact List.mem_append_left _ (hkept.readings info hold)
    · obtain rfl := List.mem_singleton.mp hnew
      exact List.mem_append_right _ List.mem_cons_self
  · intro old new hrotation
    obtain ⟨a, ha, b, hb, hab⟩ := hkept.rotations old new hrotation
    exact ⟨a, List.mem_append_left _ ha, b, List.mem_append_left _ hb, hab⟩
  · intro first keyId hfirst
    obtain ⟨before, info, later, hcreated, hrest⟩ := hkept.first first keyId hfirst
    refine ⟨before, info, later ++ [service.newKey name now pair], ?_, hrest⟩
    simp only [hcreated, List.append_assoc, List.cons_append]

/-- A key is archived when it gets a successor. -/
theorem kept_archive (hkept : history.Kept) (hold : info ∈ history.created)
    (hsuccessor : info' ∈ history.created) (hname : info'.name = info.name ++ "-next") :
    Kept { history with
      store := history.store.storeKey info.keyId { history.mark info with archived := true }
      rotations := history.rotations ++ [(info.keyId, info'.keyId)] } := by
  have hrotated : (history.rotations ++ [(info.keyId, info'.keyId)]).map Prod.fst =
      history.rotated ++ [info.keyId] := List.map_append
  have hmem : info.keyId ∈ history.store.keys.items.map Prod.fst :=
    List.mem_map.mpr ⟨_, Dict.mem_items_iff.mpr (get?_of_created hkept hold), rfl⟩
  -- The entry is replaced in its place, and no other key has its reference.
  have hitems : (history.store.storeKey info.keyId
      { history.mark info with archived := true }).keys.items = history.created.map fun other =>
        (other.keyId, { other with
          archived := decide (other.keyId ∈ history.rotated ++ [info.keyId]) }) := by
    refine (Dict.assign_of_mem history.store.keys.keys_nodup hmem).trans ?_
    rw [hkept.items, List.map_map]
    refine List.map_congr_left fun other hother => ?_
    by_cases hid : other.keyId = info.keyId
    · obtain rfl := List.inj_on_of_nodup_map (nodup_created hkept) hother hold hid
      simp [mark]
    · simp [mark, hid]
  refine ⟨?_, SigningKeys.loadMetadata_values ?_, hkept.secrets, hkept.readings, ?_, ?_⟩
  · rw [hitems]
    simp only [mark, rotated, List.map_append]
    rfl
  · intro item hitem
    change item ∈ (history.store.storeKey info.keyId _).keys.items at hitem
    rw [hitems] at hitem
    obtain ⟨other, -, rfl⟩ := List.mem_map.mp hitem
    rfl
  · intro old new hrotation
    rcases List.mem_append.mp hrotation with hbefore | hlast
    · exact hkept.rotations old new hbefore
    · cases List.mem_singleton.mp hlast
      exact ⟨info, hold, info', hsuccessor, rfl, rfl, hname⟩
  · intro first keyId hfirst
    obtain ⟨before, info, later, hcreated, hid, hname, hbefore⟩ := hkept.first first keyId hfirst
    refine ⟨before, info, later, hcreated, hid, hname, fun other hother hsame => ?_⟩
    rw [rotated, hrotated]
    exact List.mem_append_left _ (hbefore other hother hsame)

theorem firstAfter_cases {first : String → Option String} {n id : String}
    (h : firstAfter first (some (name, info)) n = some id) :
    first n = some id ∨ n = name ∧ info.keyId = id := by
  by_cases hsome : (first name).isSome
  · rw [firstAfter, if_pos hsome] at h
    exact .inl h
  · rw [firstAfter, if_neg hsome] at h
    by_cases hn : n = name
    · subst hn
      rw [Function.update_self] at h
      exact .inr ⟨rfl, Option.some.inj h⟩
    · rw [Function.update_of_ne hn] at h
      exact .inl h

/-- A name is ensured by a key before which the keys with the name are rotated. -/
theorem kept_first {readings : List DateTime} (hkept : history.Kept)
    (hreadings : history.readings ⊆ readings) {before later : List SigningKeyInfo}
    {created : SigningKeyInfo} (hsplit : history.created = before ++ created :: later)
    (hname : created.name = name) (hid : info.keyId = created.keyId)
    (hbefore : ∀ other ∈ before, other.name = name → other.keyId ∈ history.rotated) :
    Kept { history with readings, first := firstAfter history.first (some (name, info)) } := by
  refine ⟨hkept.items, hkept.metadata, hkept.secrets,
    fun info hinfo => hreadings (hkept.readings info hinfo), hkept.rotations, ?_⟩
  intro n id hfirst
  rcases firstAfter_cases hfirst with hold | ⟨rfl, rfl⟩
  · exact hkept.first n id hold
  · exact ⟨before, created, later, hsplit, hid.symm, hname, hbefore⟩

/-- The key that is found under a name is the first one that was not rotated. -/
theorem named?_eq_some (hkept : history.Kept) (h : history.store.named? name = some info) :
    ∃ before created later, history.created = before ++ created :: later ∧
      history.mark created = info ∧ created.name = name ∧ created.keyId ∉ history.rotated ∧
      ∀ other ∈ before, other.name = name → other.keyId ∈ history.rotated := by
  rw [SigningKeys.named?, values_eq hkept, List.find?_map, Option.map_eq_some_iff] at h
  obtain ⟨created, hfind, rfl⟩ := h
  obtain ⟨hcreated, before, later, hsplit, hbefore⟩ := List.find?_eq_some_iff_append.mp hfind
  have hfound : created.name = name ∧ created.keyId ∉ history.rotated := by
    simpa [mark] using hcreated
  refine ⟨before, created, later, hsplit, rfl, hfound.1, hfound.2, ?_⟩
  intro other hother hname
  have hnot := hbefore other hother
  simpa [mark, hname] using hnot

/-- A name that no key is found under has only keys that were rotated. -/
theorem named?_eq_none (hkept : history.Kept) (h : history.store.named? name = none) :
    ∀ info ∈ history.created, info.name = name → info.keyId ∈ history.rotated := by
  rw [SigningKeys.named?, values_eq hkept, List.find?_map, Option.map_eq_none_iff,
    List.find?_eq_none] at h
  intro info hinfo hname
  have hnot := h info hinfo
  simpa [mark, hname] using hnot

/-- **The listing is kept** until two keys have one reference. -/
theorem kept_step (hkept : history.Kept) (hnew : ¬Collides service history action)
    (hstep : step service history action = some next) : next.Kept := by
  have hfresh : ∀ new, action.created? service history.store = some new →
      history.store.keys.get? new.keyId = none := by
    intro new hcreated
    by_contra hlisted
    exact hnew ⟨by simp [hstep], new, hcreated, hlisted⟩
  unfold step at hstep
  split at hstep
  · cases hstep
  · cases hstep
    cases action with
    | createKey name now pair =>
      simpa [KeyAction.after, KeyAction.created?, KeyAction.rotation?, KeyAction.ensured?,
        KeyAction.reading?, firstAfter] using kept_create hkept (hfresh _ rfl)
    | ensureDefaultKey name now pair =>
      cases hfound : history.store.named? name with
      | some info =>
        obtain ⟨before, created, later, hsplit, hmark, hname, -, hbefore⟩ :=
          named?_eq_some hkept hfound
        have hid : info.keyId = created.keyId := by
          rw [← hmark]
          rfl
        simpa [KeyAction.after, KeyAction.created?, KeyAction.rotation?, KeyAction.ensured?,
          KeyAction.reading?, hfound, SigningKeyService.ensureDefaultKey_of_some hfound] using
          kept_first hkept (List.subset_append_left _ [now]) hsplit hname hid hbefore
      | none =>
        have hcreate := kept_create hkept (hfresh (service.newKey name now pair)
          (by simp [KeyAction.created?, hfound]))
        have hname : (service.newKey name now pair).name = name := rfl
        have hid : (service.newKey name now pair).keyId = (service.newKey name now pair).keyId := rfl
        have hfirst := kept_first hcreate (List.Subset.refl _) rfl hname hid
          (named?_eq_none hkept hfound)
        simpa [KeyAction.after, KeyAction.created?, KeyAction.rotation?, KeyAction.ensured?,
          KeyAction.reading?, hfound, SigningKeyService.ensureDefaultKey_of_none hfound] using hfirst
    | rotate oldKeyId now pair =>
      cases hget : history.store.keys.get? oldKeyId with
      | none =>
        -- The rotation of an unknown key only takes a reading.
        have hsame : Kept { history with readings := history.readings ++ [now] } :=
          ⟨hkept.items, hkept.metadata, hkept.secrets,
            fun info hinfo => List.mem_append_left _ (hkept.readings info hinfo), hkept.rotations,
            hkept.first⟩
        simpa [KeyAction.after, KeyAction.created?, KeyAction.rotation?, KeyAction.ensured?,
          KeyAction.reading?, firstAfter, hget, SigningKeyService.rotate_of_none hget] using hsame
      | some old =>
        obtain ⟨created, hcreated, rfl, rfl⟩ := (get?_iff hkept).mp hget
        -- The successor is created first, and the old key is archived after it.
        have hcreate := kept_create hkept (hfresh
          (service.newKey (created.name ++ "-next") now pair)
          (by simp [KeyAction.created?, hget, mark]))
        have harchive := kept_archive hcreate (List.mem_append_left _ hcreated)
          (List.mem_append_right _ List.mem_cons_self) rfl
        simpa [KeyAction.after, KeyAction.created?, KeyAction.rotation?, KeyAction.ensured?,
          KeyAction.reading?, firstAfter, hget, SigningKeyService.rotate_of_some hget, mark] using
          harchive
    | signerFor keyId =>
      simpa [KeyAction.after, KeyAction.created?, KeyAction.rotation?, KeyAction.ensured?,
        KeyAction.reading?, firstAfter] using hkept
    | restart =>
      have hstore : history.store.restart = history.store := by
        rw [SigningKeys.restart, hkept.metadata]
      simpa [KeyAction.after, KeyAction.created?, KeyAction.rotation?, KeyAction.ensured?,
        KeyAction.reading?, firstAfter, hstore] using hkept

/-! ## What the conditions are exact for -/

/-- An archived key signs exactly if a signer is asked for by its id. -/
theorem signsActive_iff (hkept : history.Kept) :
    SignsActive service history action ↔ ¬SignsArchived history action := by
  cases action with
  | signerFor asked =>
    constructor
    · intro hactive harchived
      cases asked with
      | none => cases harchived
      | some keyId =>
        -- A rotated key is listed and has its secret, so there is a signer for it.
        obtain ⟨hne, hrotated⟩ := harchived
        obtain ⟨info, hinfo, rfl⟩ := exists_of_rotated hkept hrotated
        have hlisted : history.store.keys.get? info.keyId ≠ none := by
          rw [get?_of_created hkept hinfo]
          exact Option.some_ne_none _
        have htarget := SigningKeys.signingKey_some hne hlisted
        obtain ⟨privateMaterial, hsecret⟩ := Option.ne_none_iff_exists'.mp (hkept.secrets info hinfo)
        have hsigner : service.signerFor (some info.keyId) history.store =
            .ok (service.signer privateMaterial) :=
          SigningKeyService.signerFor_eq_ok.mpr ⟨info.keyId, privateMaterial, htarget, hsecret, rfl⟩
        exact hactive info.keyId _ htarget hsigner hrotated
    · intro hnot target signer htarget _ hrotated
      rcases SigningKeys.signingKey_eq_ok htarget with ⟨rfl, hne⟩ | ⟨info, hinfo, hactive, rfl⟩
      · exact hnot ⟨hne, hrotated⟩
      -- Without an id the key is one that is not archived.
      · rw [values_eq hkept] at hinfo
        obtain ⟨created, -, rfl⟩ := List.mem_map.mp hinfo
        exact of_decide_eq_false hactive hrotated
  | _ => exact iff_of_true trivial not_false

theorem eq_of_keyId (hkept : history.Kept) (hinfo : info ∈ history.created)
    (hinfo' : info' ∈ history.created) (h : info.keyId = info'.keyId) : info = info' :=
  List.inj_on_of_nodup_map (nodup_created hkept) hinfo hinfo' h

/-- A key that descends from another one is that one, or has a longer name. -/
theorem name_of_descends (hkept : history.Kept) (hinfo : info ∈ history.created)
    (hinfo' : info' ∈ history.created) (h : history.Descends info.keyId info'.keyId) :
    info' = info ∨ info.name.length < info'.name.length := by
  generalize hid : info'.keyId = keyId at h
  -- Each rotation makes the name longer.
  induction h generalizing info' with
  | refl => exact .inl (eq_of_keyId hkept hinfo' hinfo hid)
  | tail _ hrotation ih =>
    obtain ⟨old, hold, new, hnew, hoid, hnid, hname⟩ := hkept.rotations _ _ hrotation
    obtain rfl := eq_of_keyId hkept hinfo' hnew (hid.trans hnid.symm)
    have hlonger : old.name.length < info'.name.length := by
      rw [hname, String.length_append]
      exact Nat.lt_add_of_pos_right (by decide)
    rcases ih hold hoid with rfl | hlt
    · exact .inr hlonger
    · exact .inr (hlt.trans hlonger)

/-- The first key that a name was ensured by is found as long as it is not rotated. -/
theorem named?_of_first (hkept : history.Kept) (hfirst : history.first name = some keyId)
    (hactive : keyId ∉ history.rotated) :
    ∃ info, history.store.named? name = some info ∧ info.archived = false ∧
      info.keyId = keyId := by
  obtain ⟨before, info, later, hsplit, rfl, hname, hbefore⟩ := hkept.first name keyId hfirst
  refine ⟨history.mark info, ?_, decide_eq_false hactive, rfl⟩
  rw [SigningKeys.named?, values_eq hkept, List.find?_map, Option.map_eq_some_iff]
  refine ⟨info, List.find?_eq_some_iff_append.mpr ⟨?_, before, later, hsplit, ?_⟩, rfl⟩
  · simpa [mark, hname] using hactive
  · intro other hother
    have hrotated := hbefore other hother
    simpa [mark, imp_iff_not_or] using hrotated

/-- A key that is created is none of the keys that descend from the first key of its name. -/
theorem store_ne_of_none (hkept : history.Kept) (hfound : history.store.named? name = none) :
    (service.createKey name now pair history.store).2 ≠ history.store := by
  intro hsame
  have hget : history.store.keys.get? (service.newKey name now pair).keyId =
      some (service.newKey name now pair) := by
    rw [← hsame]
    exact (Dict.get?_set _ _ _ _).trans (if_pos rfl)
  obtain ⟨created, hcreated, -, hmark⟩ := (get?_iff hkept).mp hget
  have hname : created.name = name := congrArg SigningKeyInfo.name hmark
  have hactive : decide (created.keyId ∈ history.rotated) = false :=
    congrArg SigningKeyInfo.archived hmark
  exact of_decide_eq_false hactive (named?_eq_none hkept hfound created hcreated hname)

/-- A name whose first key was rotated is ensured by a key that does not descend from it, and any other
name is ensured by its first key. -/
theorem returnsSuccessor_iff (hkept : history.Kept) :
    ReturnsSuccessor service history action ↔ ¬EnsuresRotated history action := by
  cases action with
  | ensureDefaultKey name now pair =>
    constructor
    · rintro hreturns ⟨keyId, hrotated, hfirst⟩
      obtain ⟨info, hensure, -, hdescends⟩ := hreturns keyId hfirst
      cases hfound : history.store.named? name with
      | none =>
        rw [SigningKeyService.ensureDefaultKey_of_none hfound] at hensure
        exact store_ne_of_none hkept hfound (congrArg Prod.snd hensure)
      | some found =>
        rw [SigningKeyService.ensureDefaultKey_of_some hfound] at hensure
        cases hensure
        -- The key that is found has the name itself, and a descendant has a longer one.
        obtain ⟨_, created, _, hcreated, rfl, hname, hactive, -⟩ := named?_eq_some hkept hfound
        obtain ⟨_, first, _, hsplit, rfl, hfirstname, -⟩ := hkept.first name keyId hfirst
        have hmem : created ∈ history.created := by
          rw [hcreated]
          exact List.mem_append_right _ List.mem_cons_self
        have hmem' : first ∈ history.created := by
          rw [hsplit]
          exact List.mem_append_right _ List.mem_cons_self
        rcases name_of_descends hkept hmem' hmem hdescends with rfl | hlonger
        · exact hactive hrotated
        · rw [hname, hfirstname] at hlonger
          exact absurd hlonger (lt_irrefl _)
    · intro hnot keyId hfirst
      have hactive : keyId ∉ history.rotated := fun hrotated => hnot ⟨keyId, hrotated, hfirst⟩
      obtain ⟨info, hfound, harchived, rfl⟩ := named?_of_first hkept hfirst hactive
      exact ⟨info, SigningKeyService.ensureDefaultKey_of_some hfound, harchived, .refl⟩
  | _ => exact iff_of_true trivial not_false

theorem listed_of_kept (hkept : history.Kept) : history.Listed := by
  intro info hinfo
  refine ⟨history.mark info, ?_, rfl, rfl, rfl⟩
  exact SigningKeys.mem_listKeys.mpr ⟨info.keyId, get?_of_created hkept hinfo⟩

/-- A step that creates a key does so at a reading that was not used. -/
theorem of_step {new : SigningKeyInfo} (hstep : step service history action = some next)
    (hnew : action.created? service history.store = some new) :
    new.createdAt ∉ history.readings ∧ next.created = history.created ++ [new] ∧
      next.store = action.after service history.store := by
  have hreading : action.reading? = some new.createdAt := by
    cases action with
    | createKey name now pair =>
      cases hnew
      rfl
    | ensureDefaultKey name now pair =>
      rw [KeyAction.created?] at hnew
      split at hnew <;> cases hnew
      rfl
    | rotate oldKeyId now pair =>
      obtain ⟨_, -, rfl⟩ := Option.map_eq_some_iff.mp hnew
      rfl
    | _ => cases hnew
  unfold step at hstep
  rw [hreading, hnew] at hstep
  split at hstep
  next => cases hstep
  next hunused =>
    cases hstep
    exact ⟨by simpa using hunused, rfl, rfl⟩

/-- A key is kept under its own id, also under a reference that is not new. -/
theorem key_after (hkept : history.Kept) (hget : (action.after service history.store).keys.get? keyId =
    some info) : info.keyId = keyId := by
  have hkeyed : ∀ id listed, history.store.keys.get? id = some listed → listed.keyId = id := by
    intro id listed h
    obtain ⟨created, -, rfl, rfl⟩ := (get?_iff hkept).mp h
    rfl
  -- Every write is under the id of the key.
  have hset : ∀ (d : Dict String SigningKeyInfo) id new,
      (∀ id listed, d.get? id = some listed → listed.keyId = id) → new.keyId = id →
      ∀ id' listed, (d.set id new).get? id' = some listed → listed.keyId = id' := by
    intro d id new hd hnew id' listed h
    rw [Dict.get?_set] at h
    split at h
    next heq =>
      cases h
      exact hnew.trans heq.symm
    next => exact hd id' listed h
  have hcreate : ∀ name now pair id listed,
      (service.createKey name now pair history.store).2.keys.get? id = some listed →
        listed.keyId = id := by
    intro name now pair
    exact hset _ _ _ hkeyed rfl
  cases action with
  | createKey name now pair => exact hcreate name now pair keyId info hget
  | ensureDefaultKey name now pair =>
    rw [KeyAction.after] at hget
    cases hfound : history.store.named? name with
    | some found =>
      rw [SigningKeyService.ensureDefaultKey_of_some hfound] at hget
      exact hkeyed keyId info hget
    | none =>
      rw [SigningKeyService.ensureDefaultKey_of_none hfound] at hget
      exact hcreate name now pair keyId info hget
  | rotate oldKeyId now pair =>
    rw [KeyAction.after] at hget
    cases hold : history.store.keys.get? oldKeyId with
    | none =>
      rw [SigningKeyService.rotate_of_none hold] at hget
      exact hkeyed keyId info hget
    | some old =>
      rw [SigningKeyService.rotate_of_some hold] at hget
      exact hset _ oldKeyId { old with archived := true } (hcreate _ now pair)
        (hkeyed oldKeyId old hold) keyId info hget
  | signerFor _ => exact hkeyed keyId info hget
  | restart =>
    rw [KeyAction.after, SigningKeys.restart, hkept.metadata] at hget
    exact hkeyed keyId info hget

/-- The keys stay listed exactly if no two have one reference. -/
theorem listed_step_iff (hkept : history.Kept) :
    (∀ next, step service history action = some next → next.Listed) ↔
      ¬Collides service history action := by
  constructor
  · rintro hlisted ⟨hstep, new, hnew, hget⟩
    obtain ⟨next, hnext⟩ := Option.isSome_iff_exists.mp hstep
    obtain ⟨listed, hlist⟩ := Option.ne_none_iff_exists'.mp hget
    obtain ⟨old, hold, hid, -⟩ := (get?_iff hkept).mp hlist
    -- Both keys would have to be listed under the reference.
    have hall := hlisted next hnext
    obtain ⟨hunused, hnextcreated, hnextstore⟩ := of_step hnext hnew
    have hfound : ∀ info ∈ next.created, info.keyId = new.keyId → ∃ listed,
        next.store.keys.get? new.keyId = some listed ∧ listed.createdAt = info.createdAt := by
      intro info hinfo hsame
      obtain ⟨listed, hmem, hkey, -, hat⟩ := hall info hinfo
      obtain ⟨id, hid⟩ := SigningKeys.mem_listKeys.mp hmem
      rw [hnextstore] at hid
      have hsameid := key_after hkept hid
      rw [← hsame, ← hkey, hsameid, hnextstore]
      exact ⟨listed, hid, hat⟩
    rw [hnextcreated] at hfound
    obtain ⟨listed, hlist, hat⟩ := hfound old (List.mem_append_left _ hold) hid
    obtain ⟨listed', hlist', hat'⟩ := hfound new (List.mem_append_right _ List.mem_cons_self) rfl
    cases hlist.symm.trans hlist'
    exact hunused (hat'.symm.trans hat ▸ hkept.readings old hold)
  · intro hnew next hstep
    exact listed_of_kept (kept_step hkept hnew hstep)

/-- **Signing keys rotate cleanly** in every run, exactly if no signer is asked for by the id of an
archived key, no name is ensured whose first key was rotated, and no two keys have one reference. -/
theorem keys_rotate_cleanly_iff (service : SigningKeyService) (actions : List KeyAction) :
    runMeets (step service) (RotatesCleanly service) {} actions ↔
      runMeets (step service) (fun history action =>
        ¬SignsArchived history action ∧ ¬EnsuresRotated history action ∧
          ¬Collides service history action) {} actions := by
  refine runMeets_iff Kept (fun history action hkept => ?_)
    (fun history action next hkept hcond hstep => kept_step hkept hcond.2.2 hstep) kept_empty
  rw [← signsActive_iff hkept, ← returnsSuccessor_iff hkept, ← listed_step_iff hkept]
  exact ⟨fun h => ⟨h.signs, h.returns, h.listed⟩, fun h => ⟨h.1, h.2.1, h.2.2⟩⟩

end Histories

end KeyHistory

/-- A service whose digests begin with the second and the name. -/
def secondsService : SigningKeyService where
  secrets :=
    { digest := fun name now => "sha256:" ++ toString now.second.val ++ name
      metadataToJson := SecretMetadata.name }
  signer privateMaterial _ := "signed with " ++ privateMaterial

/-- A reading at the end of the minute, and one at the end of the hour. -/
def endOfMinute : DateTime := halfPastNine (Fin.last 59)
def endOfHour : DateTime := { endOfMinute with minute := Fin.last 59 }

/-- The default key is created and rotated, and the process starts again. -/
def rotatedDefault : List KeyAction :=
  [.ensureDefaultKey "default" firstReading ⟨"private a", "public a"⟩,
    .rotate "secret:0default" endOfMinute ⟨"private b", "public b"⟩, .restart]

/-- The first default key, whether it was rotated, and what signs when it is asked for, with its
secret. -/
def describeDefault (history : KeyHistory) :
    (Option String × List String) × Option String × Option String :=
  ((history.first "default", history.rotated),
    (history.store.signingKey (some "secret:0default")).toOption,
    history.store.backend.get? "secret:0default")

/-- The number of keys before and after the default key is ensured again. -/
def keyCounts (history : KeyHistory) : ℕ × ℕ :=
  (history.store.keys.items.length,
    (secondsService.ensureDefaultKey "default" endOfHour ⟨"private c", "public c"⟩
      history.store).2.keys.items.length)

/-- The default key is ensured by a third key, and the archived key signs. -/
theorem rotated_default_key_replaced_and_signs :
    (¬runMeets (KeyHistory.step secondsService) (KeyHistory.RotatesCleanly secondsService) {}
        (rotatedDefault ++ [.ensureDefaultKey "default" endOfHour ⟨"private c", "public c"⟩])) ∧
      ¬runMeets (KeyHistory.step secondsService) (KeyHistory.RotatesCleanly secondsService) {}
        (rotatedDefault ++ [.signerFor (some "secret:0default")]) := by
  have hdescribe : (runLabels (KeyHistory.step secondsService) {} rotatedDefault).map
      describeDefault = some ((some "secret:0default", ["secret:0default"]), some "secret:0default",
        some "private a") := by decide +kernel
  have hcounts : (runLabels (KeyHistory.step secondsService) {} rotatedDefault).map keyCounts =
      some (2, 3) := by decide +kernel
  obtain ⟨history, hrun, hdescribe⟩ := Option.map_eq_some_iff.mp hdescribe
  rw [hrun, Option.map_some] at hcounts
  simp only [describeDefault, keyCounts, Prod.mk.injEq, Option.some.injEq] at hdescribe hcounts
  obtain ⟨⟨hfirst, hrotated⟩, htarget, hsecret⟩ := hdescribe
  obtain ⟨hkeys, hensured⟩ := hcounts
  constructor
  · intro h
    have hclean := (runMeets_of_append h).2 history hrun
    obtain ⟨info, hensure, -, -⟩ := hclean.1.returns "secret:0default" hfirst
    rw [hensure, hkeys] at hensured
    cases hensured
  · intro h
    have hclean := (runMeets_of_append h).2 history hrun
    have hasked : history.store.signingKey (some "secret:0default") = .ok "secret:0default" := by
      cases hkey : history.store.signingKey (some "secret:0default") with
      | error error =>
        rw [hkey] at htarget
        cases htarget
      | ok target =>
        rw [hkey] at htarget
        exact congrArg Except.ok (Option.some.inj htarget)
    have hsigner : secondsService.signerFor (some "secret:0default") history.store =
        .ok (secondsService.signer "private a") :=
      SigningKeyService.signerFor_eq_ok.mpr ⟨_, _, hasked, hsecret, rfl⟩
    refine hclean.1.signs "secret:0default" (secondsService.signer "private a") hasked hsigner ?_
    rw [hrotated]
    exact List.mem_cons_self

end SecOpent
