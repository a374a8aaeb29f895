import SecOpent.Python.Dict
import SecOpent.ReasoningLoop.PolicyGate

/-!
# Cases and their risk

`domain/cases/models.py` and `domain/cases/risk.py`: the definition of a case, and the static risk of
its steps. The risk of a case is the highest of its steps, and a step with a denied pattern denies the
case.

## Main definitions

* `CaseDefinition`: a case
* `stepRisk`, `computeRisk`: the risk of a step and of a case
* `validateDeclaredRisk`: the gate

## Main results

* `validateDeclaredRisk_eq_ok_iff`: a case passes the gate exactly if the declared risk is no lower than
  that of any of its steps
-/

namespace SecOpent

open Python

/-! ## Cases -/

/-- `CaseStatus`. -/
inductive CaseStatus
  | draft | validated | reviewed | signed | published | disabled | deprecated
  deriving DecidableEq, Repr

/-- `CaseStatus.value`. -/
def CaseStatus.value : CaseStatus → String
  | .draft => "draft"
  | .validated => "validated"
  | .reviewed => "reviewed"
  | .signed => "signed"
  | .published => "published"
  | .disabled => "disabled"
  | .deprecated => "deprecated"

/-- `CaseOrigin`. -/
inductive CaseOrigin
  | manual | modelGenerated | community
  deriving DecidableEq, Repr

/-- `CaseOrigin.value`. -/
def CaseOrigin.value : CaseOrigin → String
  | .manual => "manual"
  | .modelGenerated => "model_generated"
  | .community => "community"

/-- `CaseStep`. -/
structure CaseStep where
  id : String
  action : String
  spec : Dict String Json := .empty
  id_ne : id ≠ ""
  action_ne : action ≠ ""

/-- `CaseAssertion`. -/
structure CaseAssertion where
  id : String
  expression : String
  id_ne : id ≠ ""
  expression_ne : expression ≠ ""

/-- `CaseVerification`. -/
structure CaseVerification where
  method : String
  reproduce : ℤ
  method_ne : method ≠ ""
  one_le_reproduce : 1 ≤ reproduce

/-- `CaseDefinition`. -/
structure CaseDefinition where
  id : String
  version : String
  author : String
  risk : RiskClass
  targetType : String
  schema : String
  steps : List CaseStep
  preconditions : List String := []
  assertions : List CaseAssertion := []
  evidenceReq : List String := []
  cwe : List String := []
  cve : List String := []
  owasp : List String := []
  verification : Option CaseVerification := none
  signature : String := ""
  minEngineVersion : String := "1.0.0"
  origin : CaseOrigin := .manual
  status : CaseStatus := .draft
  yaml : String := ""
  id_ne : id ≠ ""
  version_ne : version ≠ ""
  author_ne : author ≠ ""
  targetType_ne : targetType ≠ ""
  schema_ne : schema ≠ ""
  steps_ne : steps ≠ []

/-! ## The risk of a step -/

/-- `_RISK_RANK`. -/
def RiskClass.rank : RiskClass → ℕ
  | .passive => 0
  | .low => 1
  | .active => 2
  | .intrusive => 3
  | .destructive => 4

/-- `_BOUNDED_VERBS`. -/
def boundedVerbs : List Str := ["foreach".toList, "retry".toList, "wait".toList]

/-- `_BOUND_KEYS`. -/
def boundKeys : List String := ["limit", "max", "cap", "count", "window"]

/-- `_WRITING_METHODS`. -/
def writingMethods : List Str := ["POST".toList, "PUT".toList, "DELETE".toList, "PATCH".toList]

/-- `_INTRUSIVE_MARKERS`. -/
def intrusiveMarkers : List String := ["credential", "upload", "time_based", "timing"]

/-- The truth of `spec.get(key)`. -/
def CaseStep.gives (step : CaseStep) (key : String) : Bool := (step.spec.get? key).any truthy

/-- `spec.get(key) is True`. -/
def CaseStep.sets (step : CaseStep) (key : String) : Bool :=
  match step.spec.get? key with
  | some (.bool value) => value
  | _ => false

/-- `_has_bound`. -/
def CaseStep.hasBound (step : CaseStep) : Bool := boundKeys.any step.gives

section Risk

variable (U : Unicode) (upperTable : Str → Str)

/-- `_verb`. -/
def verbOf (action : String) : Str := lower U (rpartition '.' action.toList).2

/-- The method of a step is a writing one; what `str` makes of a value that is no text never is. -/
def CaseStep.writes (step : CaseStep) : Bool :=
  match step.spec.get? "method" with
  | some (.text method) => writingMethods.contains (upper upperTable method.toList)
  | _ => false

/-- The patterns that deny a case. -/
def CaseStep.denied (step : CaseStep) : Bool :=
  let verb := verbOf U step.action
  decide ("shell".toList <:+: lower U step.action.toList) || step.sets "shell" ||
    ["exec".toList, "eval".toList, "import".toList].contains verb || step.gives "dynamic_import" ||
    (boundedVerbs.contains verb && !step.hasBound) || step.sets "target_out_of_scope"

/-- `step_risk`. -/
def stepRisk (step : CaseStep) : Option RiskClass :=
  let verb := verbOf U step.action
  if step.denied U then none
  else if startsWith (lower U step.action.toList) "oast".toList || step.gives "oast" then
    some .intrusive
  else if intrusiveMarkers.any step.gives then some .intrusive
  else if ["crawl".toList, "scan".toList, "foreach".toList].contains verb || step.gives "crawl" then
    some .active
  else if step.writes upperTable then some .active
  else some .low

/-! ## The risk of a case -/

/-- `max(risks, key=risk_rank)`, where the first of the highest counts. -/
def highestRisk : List RiskClass → Option RiskClass
  | [] => none
  | risk :: risks => some (risks.foldl
      (fun highest risk => if highest.rank < risk.rank then risk else highest) risk)

theorem rank_foldl_le_iff {risks : List RiskClass} {risk : RiskClass} {n : ℕ} :
    (risks.foldl (fun highest risk => if highest.rank < risk.rank then risk else highest) risk).rank
        ≤ n ↔
      risk.rank ≤ n ∧ ∀ other ∈ risks, other.rank ≤ n := by
  induction risks generalizing risk with
  | nil => simp
  | cons first risks ih =>
    rw [List.foldl_cons, ih, List.forall_mem_cons, ← and_assoc]
    refine and_congr_left fun _ => ?_
    split
    · omega
    · omega

/-- The highest of some risks is bounded where all of them are. -/
theorem rank_highestRisk_le_iff {risks : List RiskClass} {n : ℕ} (h : risks ≠ []) :
    ((highestRisk risks).getD .low).rank ≤ n ↔ ∀ risk ∈ risks, risk.rank ≤ n := by
  cases risks with
  | nil => exact absurd rfl h
  | cons risk risks => rw [highestRisk, Option.getD_some, rank_foldl_le_iff, List.forall_mem_cons]

/-- `compute_risk`. -/
def computeRisk (case : CaseDefinition) : Option RiskClass :=
  (case.steps.mapM (stepRisk U upperTable)).map fun risks => (highestRisk risks).getD .low

/-- `validate_declared_risk`. -/
def validateDeclaredRisk (case : CaseDefinition) : Except String Unit :=
  match computeRisk U upperTable case with
  | none => .error ("case " ++ case.id ++ " uses a deny-listed pattern (Shell / unbounded loop / " ++
      "out-of-scope target) and cannot be published")
  | some computed =>
    if case.risk.rank < computed.rank then
      .error ("case " ++ case.id ++ " declared risk " ++ case.risk.value ++
        " is below the computed risk " ++ computed.value)
    else .ok ()

variable {U upperTable} {case : CaseDefinition}

/-- All values of a list are there, and are in `p`. -/
theorem exists_mapM_iff {α β : Type} {f : α → Option β} {p : β → Prop} {xs : List α} :
    (∃ ys, xs.mapM f = some ys ∧ ∀ y ∈ ys, p y) ↔ ∀ x ∈ xs, ∃ y, f x = some y ∧ p y := by
  induction xs with
  | nil => simp
  | cons x xs ih =>
    rw [List.forall_mem_cons, ← ih, List.mapM_cons]
    constructor
    · rintro ⟨ys, hys, hp⟩
      obtain ⟨y, hy, hrest⟩ := Option.bind_eq_some_iff.mp hys
      obtain ⟨rest, hmapM, hpure⟩ := Option.bind_eq_some_iff.mp hrest
      cases hpure
      obtain ⟨hfirst, hlater⟩ := List.forall_mem_cons.mp hp
      exact ⟨⟨y, hy, hfirst⟩, rest, hmapM, hlater⟩
    · rintro ⟨⟨y, hy, hfirst⟩, rest, hmapM, hlater⟩
      refine ⟨y :: rest, ?_, List.forall_mem_cons.mpr ⟨hfirst, hlater⟩⟩
      simp [hy, hmapM]

/-- **A case passes the gate** exactly if none of its steps is denied, and the declared risk is no lower
than that of any of them. -/
theorem validateDeclaredRisk_eq_ok_iff :
    validateDeclaredRisk U upperTable case = .ok () ↔
      ∀ step ∈ case.steps, ∃ risk, stepRisk U upperTable step = some risk ∧
        risk.rank ≤ case.risk.rank := by
  rw [← exists_mapM_iff]
  unfold validateDeclaredRisk computeRisk
  cases hrisks : case.steps.mapM (stepRisk U upperTable) with
  | none => simp
  | some risks =>
    have hne : risks ≠ [] := by
      rintro rfl
      obtain ⟨step, steps, hsteps⟩ := List.exists_cons_of_ne_nil case.steps_ne
      rw [hsteps, List.mapM_cons] at hrisks
      simp [Option.bind_eq_some_iff] at hrisks
    simp only [Option.map_some, Option.some.injEq, exists_eq_left', ← rank_highestRisk_le_iff hne]
    split
    next hlt => simp [hlt]
    next hge => simp [Nat.le_of_not_lt hge]

end Risk

end SecOpent
