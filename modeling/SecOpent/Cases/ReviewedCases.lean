import SecOpent.Cases.Generation
import SecOpent.Transition.Conditions

/-!
# Cases that were reviewed

The calls on a registry of cases, of agents and of humans. A case that is reviewed, signed or published
is only moved by humans, except that a draft replaces whatever is under its id: `createDraft` does not
look, and the endpoint that generates tests creates its drafts again.

## Main definitions

* `CaseCall`: a call on the registry
* `CaseCall.Writes`: the cases that a call writes
* `Recreates`: a call creates a case again that was reviewed

## Main results

* `get?_after`: a call writes these cases, and leaves the others
* `gate_passed`: in every run, the cases past their draft have passed the gate
* `reviewed_kept_iff`: exactly when only humans change what was reviewed
-/

namespace SecOpent

open Python Transition

/-- A call on the registry of cases. The endpoint comes with the model that it reads. -/
inductive CaseCall
  | createDraft (case : CaseDefinition)
  | validate (caseId : String)
  | fastTrack (caseId : String)
  | generateTests (appId version : String) (stored : Option AppModel)
  | review (caseId actorRole : String)
  | sign (caseId : String) (signer : CaseSigner) (actorRole : String)
  | publish (caseId actorRole : String)

/-- The case on which a human acts. -/
def CaseCall.humanOn? : CaseCall → Option String
  | .review caseId actorRole | .sign caseId _ actorRole | .publish caseId actorRole =>
    if actorRole = "human" then some caseId else none
  | _ => none

/-- A case that is reviewed, signed or published. -/
def CaseStatus.pastReview (status : CaseStatus) : Bool :=
  [CaseStatus.reviewed, .signed, .published].contains status

section Calls

variable (service : CaseService) (strategies : List LogicGenerationStrategy)

/-- The registry after a call. -/
def CaseCall.after (registry : CaseRegistry) : CaseCall → CaseRegistry
  | .createDraft case => (CaseService.createDraft case registry).2
  | .validate caseId => (service.validate caseId registry).2
  | .fastTrack caseId => (service.fastTrackModelGenerated caseId registry).2
  | .generateTests appId version stored =>
    (service.generateTests strategies appId version stored registry).2
  | .review caseId actorRole => (service.review caseId actorRole registry).2
  | .sign caseId signer actorRole => (service.sign caseId signer actorRole registry).2
  | .publish caseId actorRole => (service.publish caseId actorRole registry).2

/-- A call as a step. -/
def caseStep (registry : CaseRegistry) (call : CaseCall) : Option CaseRegistry :=
  some (call.after service strategies registry)

/-- The cases that a call writes. -/
inductive CaseCall.Writes (registry : CaseRegistry) : CaseCall → CaseDefinition → Prop
  | drafted (case : CaseDefinition) : Writes registry (.createDraft case) (case.moved .draft)
  | validated {caseId : String} {old : CaseDefinition} : registry.get? caseId = some old →
      old.status = .draft → service.enforcePublish old = .ok () →
      Writes registry (.validate caseId) (old.moved .validated)
  | tracked {caseId : String} {old : CaseDefinition} : registry.get? caseId = some old →
      old.origin = .modelGenerated → old.status = .draft → service.enforcePublish old = .ok () →
      Writes registry (.fastTrack caseId) (old.moved old.trackedStatus)
  | generated {appId version : String} {model : AppModel} {tests : List LogicTestCase}
      {test : LogicTestCase} : model.status = .signed → generateAll strategies model = .ok tests →
      test ∈ tests →
      Writes registry (.generateTests appId version (some model)) (generatedCase model test)
  | reviewed {caseId : String} {old : CaseDefinition} : registry.get? caseId = some old →
      old.status = .validated →
      Writes registry (.review caseId "human") (old.moved .reviewed)
  | signed {caseId signature : String} {signer : CaseSigner} {old : CaseDefinition} :
      registry.get? caseId = some old → old.status = .reviewed →
      signer (signingPayload old) = .ok signature →
      Writes registry (.sign caseId signer "human") (old.withSignature signature)
  | published {caseId : String} {old : CaseDefinition} : registry.get? caseId = some old →
      old.status = .signed →
      Writes registry (.publish caseId "human") (old.moved .published)

/-- There is a case under the id that is reviewed, signed or published. -/
def HoldsReviewed (registry : CaseRegistry) (id : String) : Prop :=
  ∃ case, registry.get? id = some case ∧ case.status.pastReview = true

/-- The call creates a case again that is reviewed, signed or published. -/
def Recreates (registry : CaseRegistry) : CaseCall → Prop
  | .createDraft case => HoldsReviewed registry case.id
  | .generateTests _ _ (some model) =>
    model.status = .signed ∧ ∃ tests, generateAll strategies model = .ok tests ∧
      ∃ test ∈ tests, HoldsReviewed registry (logicCaseId test)
  | _ => False

end Calls

/-! ## What a call leaves -/

section After

variable {service : CaseService} {strategies : List LogicGenerationStrategy}
  {registry registry' : CaseRegistry} {call : CaseCall} {calls : List CaseCall}
  {case new : CaseDefinition} {id : String}

/-- A call that returns what it writes, and writes nothing before it raises. -/
theorem get?_of_clean {x : Call CaseRegistry CaseDefinition} (hclean : x.Clean)
    (hok : ∀ new after, x registry = (.ok new, after) →
      call.Writes service strategies registry new ∧ after = registry.put new) :
    (x registry).2.get? id = registry.get? id ∨
      ∃ new, call.Writes service strategies registry new ∧ new.id = id ∧
        (x registry).2.get? id = some new := by
  rcases hx : x registry with ⟨⟨error⟩ | new, after⟩
  · have hsame : after = registry := hclean registry _ _ hx
    exact .inl (by rw [hsame])
  · obtain ⟨hwrites, rfl⟩ := hok new after hx
    by_cases hid : id = new.id
    · exact .inr ⟨new, hwrites, hid.symm, by rw [Table.get?_put, if_pos hid]⟩
    · exact .inl (by rw [Table.get?_put, if_neg hid])

/-- **A call writes its cases**, and leaves the others as they are. -/
theorem get?_after (service : CaseService) (strategies : List LogicGenerationStrategy)
    (registry : CaseRegistry) (call : CaseCall) (id : String) :
    (call.after service strategies registry).get? id = registry.get? id ∨
      ∃ new, call.Writes service strategies registry new ∧ new.id = id ∧
        (call.after service strategies registry).get? id = some new := by
  cases call with
  | createDraft case =>
    refine get?_of_clean (Call.Returns.clean fun _ => ⟨_, _, rfl⟩) fun new after h => ?_
    cases h
    exact ⟨.drafted case, rfl⟩
  | validate caseId =>
    refine get?_of_clean validate_clean fun new after h => ?_
    obtain ⟨old, hget, hgate, hstatus, rfl, rfl⟩ := validate_eq_ok.mp h
    exact ⟨.validated hget hstatus hgate, rfl⟩
  | fastTrack caseId =>
    refine get?_of_clean fastTrack_clean fun new after h => ?_
    obtain ⟨old, hget, horigin, hgate, hstatus, rfl, rfl⟩ := fastTrack_eq_ok.mp h
    exact ⟨.tracked hget horigin hstatus hgate, rfl⟩
  | review caseId actorRole =>
    refine get?_of_clean review_clean fun new after h => ?_
    obtain ⟨old, rfl, hget, hstatus, rfl, rfl⟩ := review_eq_ok.mp h
    exact ⟨.reviewed hget hstatus, rfl⟩
  | sign caseId signer actorRole =>
    refine get?_of_clean sign_clean fun new after h => ?_
    obtain ⟨old, signature, rfl, hget, hstatus, hsigner, rfl, rfl⟩ := sign_eq_ok.mp h
    exact ⟨.signed hget hstatus hsigner, rfl⟩
  | publish caseId actorRole =>
    refine get?_of_clean publish_clean fun new after h => ?_
    obtain ⟨old, rfl, hget, hstatus, rfl, rfl⟩ := publish_eq_ok.mp h
    exact ⟨.published hget hstatus, rfl⟩
  | generateTests appId version stored =>
    rw [CaseCall.after]
    rcases hx : service.generateTests strategies appId version stored registry with
      ⟨⟨error⟩ | cases, after⟩
    · have hsame : after = registry := Call.Clean.transaction registry _ _ hx
      exact .inl (by rw [hsame])
    · obtain ⟨model, tests, rfl, hsigned, htests, rfl, rfl⟩ := generateTests_eq_ok.mp hx
      by_cases hid : ∃ row ∈ tests.map (generatedCase model), row.id = id
      · obtain ⟨row, hrow, rfl⟩ := hid
        obtain ⟨last, hlast, hlastid, hget⟩ := registry.get?_putAll_of_mem hrow
        obtain ⟨test, htest, rfl⟩ := List.mem_map.mp hlast
        exact .inr ⟨_, .generated hsigned htests htest, hlastid, hget⟩
      · refine .inl (Table.get?_putAll_of_ne fun row hrow heq => hid ⟨row, hrow, heq⟩)

/-! ## The gate -/

/-- The cases past their draft have passed the gate. -/
def GatePassed (service : CaseService) (registry : CaseRegistry) : Prop :=
  ∀ id case, registry.get? id = some case →
    case.status ∈ [CaseStatus.validated, .reviewed, .signed, .published] →
    service.enforcePublish case = .ok ()

theorem enforcePublish_moved (status : CaseStatus) :
    service.enforcePublish (case.moved status) = service.enforcePublish case := rfl

theorem enforcePublish_withSignature (signature : String) :
    service.enforcePublish (case.withSignature signature) = service.enforcePublish case := rfl

/-- What a call writes past a draft has passed the gate. -/
theorem passed_of_writes (hpassed : GatePassed service registry)
    (hwrites : call.Writes service strategies registry new) (hstatus : new.status ≠ .draft) :
    service.enforcePublish new = .ok () := by
  cases hwrites with
  | drafted draft => exact absurd rfl hstatus
  | validated _ _ hgate => exact hgate
  | tracked _ _ _ hgate => exact hgate
  | generated _ _ _ =>
    rw [generatedCase, enforcePublish_moved]
    exact enforcePublish_logicToCase
  | reviewed hold hvalidated =>
    rw [enforcePublish_moved]
    exact hpassed _ _ hold (by simp [hvalidated])
  | signed hold hreviewed _ =>
    rw [enforcePublish_withSignature]
    exact hpassed _ _ hold (by simp [hreviewed])
  | published hold hsigned =>
    rw [enforcePublish_moved]
    exact hpassed _ _ hold (by simp [hsigned])

theorem gatePassed_after (hpassed : GatePassed service registry) (call : CaseCall) :
    GatePassed service (call.after service strategies registry) := by
  intro id case hget hstatus
  rcases get?_after service strategies registry call id with hsame | ⟨new, hwrites, -, hnew⟩
  · exact hpassed id case (hsame.symm.trans hget) hstatus
  · cases hnew.symm.trans hget
    refine passed_of_writes hpassed hwrites ?_
    rintro hdraft
    rw [hdraft] at hstatus
    exact absurd hstatus (by decide)

/-- **In every run, the cases past their draft have passed the gate.** -/
theorem gate_passed
    (h : Reaches (caseStep service strategies) (fun _ _ => True) registry registry')
    (hpassed : GatePassed service registry) : GatePassed service registry' := by
  refine h.invariant hpassed fun t call u ht _ hstep => ?_
  cases hstep
  exact gatePassed_after ht call

/-! ## What only humans change -/

/-- What an agent writes over a reviewed case is a case that it creates again. -/
theorem recreates_of_writes (hget : registry.get? id = some case)
    (hpast : case.status.pastReview = true) (hagent : call.humanOn? ≠ some id)
    (hwrites : call.Writes service strategies registry new) (hid : new.id = id) :
    Recreates strategies registry call := by
  -- A case that is moved is the one that is found under the id.
  have hmoved : ∀ {caseId : String} {old : CaseDefinition}, registry.get? caseId = some old →
      old.id = id → old = case ∧ caseId = id := by
    intro caseId old hold hid
    have hkey : caseId = id := (Table.key_of_get? hold).symm.trans hid
    subst hkey
    exact ⟨Option.some.inj (hold.symm.trans hget), rfl⟩
  cases hwrites with
  | drafted draft =>
    cases hid
    exact ⟨case, hget, hpast⟩
  | generated hsigned htests htest =>
    cases hid
    exact ⟨hsigned, _, htests, _, htest, case, hget, hpast⟩
  | validated hold hstatus _ =>
    obtain ⟨rfl, -⟩ := hmoved hold hid
    rw [hstatus] at hpast
    cases hpast
  | tracked hold _ hstatus _ =>
    obtain ⟨rfl, -⟩ := hmoved hold hid
    rw [hstatus] at hpast
    cases hpast
  | reviewed hold _ => exact absurd (by rw [(hmoved hold hid).2]; rfl) hagent
  | signed hold _ _ => exact absurd (by rw [(hmoved hold hid).2]; rfl) hagent
  | published hold _ => exact absurd (by rw [(hmoved hold hid).2]; rfl) hagent

/-- A case that is created again is no longer reviewed. -/
theorem not_kept_of_recreates (service : CaseService) (h : Recreates strategies registry call) :
    call.humanOn? = none ∧ ∃ id case new, registry.get? id = some case ∧
      case.status.pastReview = true ∧
      (call.after service strategies registry).get? id = some new ∧
      new.status.pastReview = false := by
  cases call with
  | createDraft case =>
    obtain ⟨old, hget, hpast⟩ := h
    refine ⟨rfl, case.id, old, case.moved .draft, hget, hpast, ?_, rfl⟩
    change (registry.put (case.moved .draft)).get? case.id = _
    rw [Table.get?_put]
    exact if_pos rfl
  | generateTests appId version stored =>
    cases stored with
    | none => cases h
    | some model =>
      obtain ⟨hsigned, tests, htests, test, htest, old, hget, hpast⟩ := h
      have hrow : generatedCase model test ∈ tests.map (generatedCase model) :=
        List.mem_map.mpr ⟨test, htest, rfl⟩
      obtain ⟨last, hlast, -, hlater⟩ := registry.get?_putAll_of_mem hrow
      obtain ⟨test', -, rfl⟩ := List.mem_map.mp hlast
      refine ⟨rfl, logicCaseId test, old, generatedCase model test', hget, hpast, ?_, rfl⟩
      rw [CaseCall.after, generateTests_eq_ok.mpr ⟨model, tests, rfl, hsigned, htests, rfl, rfl⟩]
      exact hlater
  | _ => cases h

/-- A call keeps what was reviewed, unless a human acts on it, exactly if it creates nothing of it
again. -/
theorem preserves_reviewed_iff (service : CaseService) :
    (∀ id case, case.status.pastReview = true →
      Preserves (caseStep service strategies) (fun registry => registry.get? id = some case)
        (fun _ call => call.humanOn? ≠ some id) registry call) ↔
      ¬Recreates strategies registry call := by
  constructor
  · intro h hrecreates
    obtain ⟨hhuman, id, case, new, hget, hpast, hafter, hnew⟩ :=
      not_kept_of_recreates service hrecreates
    have hagent : call.humanOn? ≠ some id := by
      rw [hhuman]
      exact nofun
    have hkept := h id case hpast hget hagent _ rfl
    cases hafter.symm.trans hkept
    rw [hpast] at hnew
    cases hnew
  · intro h id case hpast hget hagent after hstep
    cases hstep
    rcases get?_after service strategies registry call id with hsame | ⟨new, hwrites, hid, -⟩
    · rw [hsame, hget]
    · exact absurd (recreates_of_writes hget hpast hagent hwrites hid) h

/-- **Only humans change what was reviewed**, in every run, exactly if no call creates a case again
that is reviewed, signed or published. -/
theorem reviewed_kept_iff (service : CaseService) (strategies : List LogicGenerationStrategy)
    (registry : CaseRegistry) (calls : List CaseCall) :
    (∀ id case, case.status.pastReview = true →
      Persists (caseStep service strategies) (fun registry => registry.get? id = some case)
        (fun _ call => call.humanOn? ≠ some id) registry calls) ↔
      runMeets (caseStep service strategies)
        (fun registry call => ¬Recreates strategies registry call) registry calls := by
  simp only [persists_iff]
  rw [← runMeets_congr fun registry call => preserves_reviewed_iff service]
  simp only [runMeets_forall]

end After

/-- A signed model with one transition that is not idempotent. -/
def signedShop : AppModel where
  appId := "shop"
  version := "1.0"
  transitions := [⟨"pay", "cart", "paid", "/pay", false, by decide, by decide, by decide, by decide⟩]
  status := .signed
  digest := "d"
  appId_ne := by decide
  version_ne := by decide
  digest_ne := by decide

/-- The test that replays its transition. -/
def replayTest : LogicTestCase :=
  restlerCase codeDigest signedShop .replay "pay" (by decide)
    ("replay non-idempotent transition " ++ "/pay" ++ " twice")
    [("repeat_endpoint", .text "/pay"), ("times", .int 2)]

theorem generateAll_signedShop :
    generateAll [restlerStrategy codeDigest] signedShop = .ok [replayTest] := by
  rfl

/-- A service on ASCII texts. -/
def asciiService : CaseService := ⟨.ascii, id, id⟩

/-- A call of the endpoint on the model. -/
def generateShop : CaseCall := .generateTests "shop" "1.0" (some signedShop)

theorem after_generateShop (registry : CaseRegistry) :
    generateShop.after asciiService [restlerStrategy codeDigest] registry =
      registry.put (generatedCase signedShop replayTest) := by
  rw [generateShop, CaseCall.after, generateTests_eq_ok.mpr
    ⟨signedShop, [replayTest], rfl, rfl, generateAll_signedShop, rfl, rfl⟩]
  rfl

theorem get?_put_generated (registry : CaseRegistry) (status : CaseStatus) :
    (registry.put ((logicToCase signedShop replayTest).moved status)).get?
      (logicCaseId replayTest) = some ((logicToCase signedShop replayTest).moved status) := by
  rw [Table.get?_put]
  exact if_pos rfl

/-- A human reviews the generated case. -/
theorem after_review (registry : CaseRegistry) :
    (CaseCall.review (logicCaseId replayTest) "human").after asciiService [restlerStrategy codeDigest]
        (registry.put (generatedCase signedShop replayTest)) =
      (registry.put (generatedCase signedShop replayTest)).put
        ((generatedCase signedShop replayTest).moved .reviewed) := by
  have hget : (registry.put (generatedCase signedShop replayTest)).get? (logicCaseId replayTest) =
      some (generatedCase signedShop replayTest) := get?_put_generated registry .validated
  rw [CaseCall.after, review_eq_ok.mpr ⟨_, rfl, hget, rfl, rfl, rfl⟩]

/-- The tests are generated, a human reviews the case, and the tests are generated again: the second
generation takes the review back. -/
theorem regenerated_case_unreviewed :
    ¬∀ id case, case.status.pastReview = true →
      Persists (caseStep asciiService [restlerStrategy codeDigest])
        (fun registry => registry.get? id = some case) (fun _ call => call.humanOn? ≠ some id) .empty
        [generateShop, .review (logicCaseId replayTest) "human", generateShop] := by
  intro h
  have hrun : runLabels (caseStep asciiService [restlerStrategy codeDigest]) .empty
      [generateShop, .review (logicCaseId replayTest) "human"] =
      some ((Table.empty.put (generatedCase signedShop replayTest)).put
        ((generatedCase signedShop replayTest).moved .reviewed)) := by
    rw [← after_review, ← after_generateShop]
    rfl
  have hkept := h (logicCaseId replayTest) ((generatedCase signedShop replayTest).moved .reviewed) rfl
    [generateShop, .review (logicCaseId replayTest) "human"] [generateShop] [] _ _ rfl hrun
    (get?_put_generated _ .reviewed) ⟨nofun, fun _ _ => trivial⟩ rfl
  rw [after_generateShop] at hkept
  have hcase := (get?_put_generated _ .validated).symm.trans hkept
  have hstatus : CaseStatus.validated = .reviewed :=
    congrArg CaseDefinition.status (Option.some.inj hcase)
  cases hstatus

end SecOpent
