import SecOpent.Cases.ReviewedCases
import SecOpent.Cases.Signing
import SecOpent.Transition.Histories

/-!
# Cases that are published

What stands behind a case that is published, whatever calls were made on the registry: it passed the
gate, a human signed it as it is, and a human reviewed it as it is unless it came from a signed model
and its risk is low. A call writes a case over with the same content or starts it again as a draft, so
what was done to a case past its draft was done to the content that it has now.

## Main definitions

* `SameContent`: two cases differ in status and signature at most
* `HumanReviewed`, `HumanSigned`: what a human did to a case in a run
* `Vouched`: what stands behind a case of its status

## Main results

* `vouched_after`: a call keeps what stands behind the cases
* `published_vouched`: what stands behind every published case, in every run
-/

namespace SecOpent

open Python Transition

/-- The cases differ in their status and signature at most. -/
def SameContent (old case : CaseDefinition) : Prop :=
  { old with status := case.status, signature := case.signature } = case

/-- The risks with which a case from a signed model needs no review. -/
def LowRiskGenerated (case : CaseDefinition) : Prop :=
  case.origin = .modelGenerated ∧ case.risk ∈ [RiskClass.passive, .low]

section History

variable (service : CaseService) (strategies : List LogicGenerationStrategy) (calls : List CaseCall)
  (case : CaseDefinition)

/-- A human reviewed the case: the call found its content as a validated case. -/
def HumanReviewed : Prop :=
  ∃ registry old, Takes (caseStep service strategies) .empty calls (.review case.id "human") registry ∧
    registry.get? case.id = some old ∧ old.status = .validated ∧ SameContent old case

/-- A human signed the case: the call found its content as a reviewed case, and the signature of the
case is what the signer makes of its payload. -/
def HumanSigned : Prop :=
  ∃ registry old signer,
    Takes (caseStep service strategies) .empty calls (.sign case.id signer "human") registry ∧
      registry.get? case.id = some old ∧ old.status = .reviewed ∧ SameContent old case ∧
      signer (signingPayload case) = .ok case.signature

/-- What stands behind a case of its status. -/
structure Vouched : Prop where
  reviewed : case.status.pastReview = true →
    HumanReviewed service strategies calls case ∨ LowRiskGenerated case
  signed : case.status ∈ [CaseStatus.signed, .published] → HumanSigned service strategies calls case

end History

section Vouching

variable {service : CaseService} {strategies : List LogicGenerationStrategy}
  {calls : List CaseCall} {call : CaseCall} {registry after : CaseRegistry}
  {case old new : CaseDefinition} {id : String}

theorem SameContent.moved (h : SameContent old case) (status : CaseStatus) :
    SameContent old (case.moved status) := by
  unfold SameContent at h ⊢
  rw [← h]
  rfl

theorem SameContent.withSignature (h : SameContent old case) (signature : String) :
    SameContent old (case.withSignature signature) := by
  unfold SameContent at h ⊢
  rw [← h]
  rfl

theorem sameContent_moved (status : CaseStatus) : SameContent old (old.moved status) := rfl

theorem sameContent_withSignature (signature : String) :
    SameContent old (old.withSignature signature) := rfl

theorem HumanReviewed.concat (h : HumanReviewed service strategies calls case) (call : CaseCall) :
    HumanReviewed service strategies (calls ++ [call]) case := by
  obtain ⟨registry, old, htakes, hold⟩ := h
  exact ⟨registry, old, htakes.concat call, hold⟩

theorem HumanSigned.concat (h : HumanSigned service strategies calls case) (call : CaseCall) :
    HumanSigned service strategies (calls ++ [call]) case := by
  obtain ⟨registry, old, signer, htakes, hold⟩ := h
  exact ⟨registry, old, signer, htakes.concat call, hold⟩

theorem HumanReviewed.moved (h : HumanReviewed service strategies calls case) (status : CaseStatus) :
    HumanReviewed service strategies calls (case.moved status) := by
  obtain ⟨registry, old, htakes, hget, hstatus, hsame⟩ := h
  exact ⟨registry, old, htakes, hget, hstatus, hsame.moved status⟩

theorem HumanReviewed.withSignature (h : HumanReviewed service strategies calls case)
    (signature : String) :
    HumanReviewed service strategies calls (case.withSignature signature) := by
  obtain ⟨registry, old, htakes, hget, hstatus, hsame⟩ := h
  exact ⟨registry, old, htakes, hget, hstatus, hsame.withSignature signature⟩

theorem HumanSigned.moved (h : HumanSigned service strategies calls case) (status : CaseStatus) :
    HumanSigned service strategies calls (case.moved status) := by
  obtain ⟨registry, old, signer, htakes, hget, hstatus, hsame, hsigner⟩ := h
  exact ⟨registry, old, signer, htakes, hget, hstatus, hsame.moved status, hsigner⟩

theorem Vouched.concat (h : Vouched service strategies calls case) (call : CaseCall) :
    Vouched service strategies (calls ++ [call]) case where
  reviewed hpast := (h.reviewed hpast).imp_left fun hreviewed => hreviewed.concat call
  signed hsigned := (h.signed hsigned).concat call

/-- Nothing has to stand behind a case that is a draft or validated. -/
theorem vouched_of_early (h : case.status ∈ [CaseStatus.draft, .validated]) :
    Vouched service strategies calls case := by
  constructor
  · intro hpast
    rcases List.mem_pair.mp h with hstatus | hstatus <;> rw [hstatus] at hpast <;> cases hpast
  · intro hsigned
    rcases List.mem_pair.mp h with hstatus | hstatus <;> rw [hstatus] at hsigned <;> simp at hsigned

/-- A case that is just past its review needs no signature yet. -/
theorem vouched_of_reviewed (hstatus : case.status = .reviewed)
    (h : HumanReviewed service strategies calls case ∨ LowRiskGenerated case) :
    Vouched service strategies calls case where
  reviewed _ := h
  signed hsigned := by
    rw [hstatus] at hsigned
    simp at hsigned

/-- What stands behind the cases that a call writes. -/
theorem vouched_of_writes (hrun : runLabels (caseStep service strategies) .empty calls = some registry)
    (hvouched : ∀ id case, registry.get? id = some case → Vouched service strategies calls case)
    (hwrites : call.Writes service strategies registry new) :
    Vouched service strategies (calls ++ [call]) new := by
  cases hwrites with
  | drafted draft => exact vouched_of_early (by simp)
  | validated _ _ _ => exact vouched_of_early (by simp)
  | generated _ _ _ => exact vouched_of_early (by simp [generatedCase])
  | @tracked caseId old _ horigin _ _ =>
    -- The fast path moves a case past its review only where its risk is low.
    by_cases hrisk : old.risk ∈ [RiskClass.passive, .low]
    · have hstatus : old.trackedStatus = .reviewed := if_pos hrisk
      exact vouched_of_reviewed hstatus (.inr ⟨horigin, hrisk⟩)
    · have hstatus : old.trackedStatus = .validated := if_neg hrisk
      exact vouched_of_early (by simp [hstatus])
  | @reviewed caseId old hget hstatus =>
    -- The call is the review, and moves nothing but the status.
    have hid : old.id = caseId := Table.key_of_get? hget
    subst hid
    exact vouched_of_reviewed rfl
      (.inl ⟨registry, old, .last hrun _, hget, hstatus, sameContent_moved _⟩)
  | @signed caseId signature signer old hget hstatus hsigner =>
    have hid : old.id = caseId := Table.key_of_get? hget
    subst hid
    -- The signature is all that is new, so the review before it was of the same content.
    have hold := (hvouched _ _ hget).concat (.sign old.id signer "human")
    refine ⟨fun _ => ?_, fun _ => ?_⟩
    · have hreviewed := hold.reviewed (by rw [hstatus]; rfl)
      exact hreviewed.imp_left fun h => h.withSignature signature
    · exact ⟨registry, old, signer, .last hrun _, hget, hstatus, sameContent_withSignature _, hsigner⟩
  | @published caseId old hget hstatus =>
    -- A case is published from the state in which it was signed.
    have hold := (hvouched _ _ hget).concat (.publish caseId "human")
    refine ⟨fun _ => ?_, fun _ => ?_⟩
    · have hreviewed := hold.reviewed (by rw [hstatus]; rfl)
      exact hreviewed.imp_left fun h => h.moved .published
    · exact (hold.signed (by simp [hstatus])).moved .published

/-- **A call keeps what stands behind the cases**: it leaves a case as it is, or writes one for which
it stands itself. -/
theorem vouched_after (hrun : runLabels (caseStep service strategies) .empty calls = some registry)
    (hvouched : ∀ id case, registry.get? id = some case → Vouched service strategies calls case)
    (hget : (call.after service strategies registry).get? id = some case) :
    Vouched service strategies (calls ++ [call]) case := by
  rcases get?_after service strategies registry call id with hsame | ⟨new, hwrites, -, hnew⟩
  · exact (hvouched id case (hsame.symm.trans hget)).concat call
  · cases hnew.symm.trans hget
    exact vouched_of_writes hrun hvouched hwrites

theorem vouched_of_runLabels
    (hrun : runLabels (caseStep service strategies) .empty calls = some registry) :
    ∀ id case, registry.get? id = some case → Vouched service strategies calls case := by
  refine history_induction (P := fun calls registry => ∀ id case, registry.get? id = some case →
    Vouched service strategies calls case) ?_ ?_ hrun
  · intro id case hget
    cases hget
  · intro calls registry call after hrun hvouched hstep id case hget
    cases hstep
    exact vouched_after hrun hvouched hget

theorem gatePassed_of_runLabels
    (hrun : runLabels (caseStep service strategies) .empty calls = some registry) :
    GatePassed service registry := by
  refine gate_passed (.of_runLabels hrun (runMeets_of_forall fun _ _ _ => trivial)) ?_
  intro id case hget
  cases hget

/-- **Every published case** passes the gate, has the signature that a human had made of the payload
that it has now, and was reviewed by a human as it is now, unless it came from a signed model and its
risk is low. Where all signatures of a run are made by one signer, its signature is by this one. -/
theorem published_vouched
    (hrun : runLabels (caseStep service strategies) .empty calls = some registry)
    (hget : registry.get? id = some case) (hstatus : case.status = .published) :
    service.enforcePublish case = .ok () ∧
      HumanSigned service strategies calls case ∧
      (∀ signer, (∀ caseId made actorRole, .sign caseId made actorRole ∈ calls → made = signer) →
        signer (signingPayload case) = .ok case.signature) ∧
      (HumanReviewed service strategies calls case ∨ LowRiskGenerated case) := by
  have hvouched := vouched_of_runLabels hrun id case hget
  have hsigned := hvouched.signed (by simp [hstatus])
  refine ⟨?_, hsigned, ?_, hvouched.reviewed (by rw [hstatus]; rfl)⟩
  · exact gatePassed_of_runLabels hrun id case hget (by simp [hstatus])
  · rintro signer hone
    obtain ⟨registry', old, made, htakes, -, -, -, hsigner⟩ := hsigned
    rw [← hone _ _ _ htakes.mem]
    exact hsigner

/-- A signer that marks what it signs. -/
def markSigner : CaseSigner := fun payload => .ok ("signed:" ++ payload)

/-- The lookup of a name is validated, reviewed, signed and published. -/
def lookupCalls : List CaseCall :=
  [.createDraft lookupCase, .validate "c1", .review "c1" "human", .sign "c1" markSigner "human",
    .publish "c1" "human"]

/-- The lookup as it is published. -/
def publishedLookup : CaseDefinition :=
  (lookupCase.withSignature ("signed:" ++ signingPayload lookupCase)).moved .published

/-- The registry after these calls. -/
def lookupRegistry : CaseRegistry :=
  lookupCalls.foldl (fun registry call => call.after asciiService [] registry) .empty

/-- The published lookup is vouched for. -/
theorem lookup_vouched :
    asciiService.enforcePublish publishedLookup = .ok () ∧
      HumanSigned asciiService [] lookupCalls publishedLookup ∧
      (∀ signer,
        (∀ caseId made actorRole, .sign caseId made actorRole ∈ lookupCalls → made = signer) →
        signer (signingPayload publishedLookup) = .ok publishedLookup.signature) ∧
      (HumanReviewed asciiService [] lookupCalls publishedLookup ∨
        LowRiskGenerated publishedLookup) := by
  have hrun : runLabels (caseStep asciiService []) .empty lookupCalls = some lookupRegistry := rfl
  have hget : lookupRegistry.get? "c1" = some publishedLookup := rfl
  exact published_vouched hrun hget rfl

end Vouching

end SecOpent
