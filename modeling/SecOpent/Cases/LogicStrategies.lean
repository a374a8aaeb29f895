import SecOpent.Cases.Generation
import SecOpent.Evidence.Redaction
import SecOpent.Python.Dict
import SecOpent.Python.Floats
import SecOpent.Python.RegexParts
import SecOpent.Python.Traversal

/-!
# The strategies of logic tests

`infrastructure/logic_strategies`: the boundaries of the fields of a model are probed by
`schemathesis_strategy.py`, and its invariants are broken by `invariant_strategy.py`. With the sequences
of transitions these are the tests of a model, whatever its digest is; a case of a test adds a
description and a signature.

## Main definitions

* `boundaryValues`, `schemathesisStrategy`: values out of the bounds of a field
* `matchInvariant`, `violatingValue`, `invariantStrategy`: values that break an invariant
* `LogicTest`, `AppModel.tests`: what the tests of a model are
* `generateIncremental`: `LogicTestGenerator.generate_incremental`

## Main results

* `generateAll_spec`: the cases are those of the tests of the model, in their order
* `exists_generateAll`: generation returns where every value has a text
-/

namespace SecOpent

open Python Regex

/-! ## Comparisons -/

/-- The operators of an invariant. -/
inductive Comparison
  | ge | le | eq | gt | lt
  deriving DecidableEq, Repr

/-- The text of an operator. -/
def Comparison.text : Comparison → Str
  | .ge => ">=".toList
  | .le => "<=".toList
  | .eq => "==".toList
  | .gt => ">".toList
  | .lt => "<".toList

/-- The operators, in the order in which the pattern has them. -/
def comparisons : List Comparison := [.ge, .le, .eq, .gt, .lt]

/-- The operator with the text. -/
def Comparison.ofText? (text : Str) : Option Comparison :=
  comparisons.find? fun op => op.text == text

/-- `value op bound`. -/
def Comparison.Holds (op : Comparison) (value bound : ℚ) : Prop :=
  match op with
  | .ge => bound ≤ value
  | .le => value ≤ bound
  | .eq => value = bound
  | .gt => bound < value
  | .lt => value < bound

section Strategies

variable (U : Unicode) (repr : Json → Except String Str) (F : FloatArithmetic) (H : Sha256)

/-- The field is of integers. -/
def isIntField (field : AppModel.Field) : Bool := lower U field.type.toList == "int".toList

/-! ## Boundaries -/

/-- A bound moved by `n`, if it is a number; a boolean is none here. -/
def boundaryProbe (isInt : Bool) (n : ℤ) : Json → Option Json
  | .int bound => some (.int (bound + n))
  | .float bound =>
    let moved := F.add bound n
    some (if isInt then .int (truncate (F.value moved)) else .float moved)
  | _ => none

/-- `_boundary_values`. -/
def boundaryValues (field : AppModel.Field) : List (String × Json) :=
  match field.range with
  | none => []
  | some (low, high) =>
    ((boundaryProbe F (isIntField U field) (-1) low).map fun below => ("below_low", below)).toList ++
      ((boundaryProbe F (isIntField U field) 1 high).map fun above => ("above_high", above)).toList

/-- The target of a boundary test. -/
def boundaryTarget (field : AppModel.Field) (label : String) : String :=
  field.name ++ (":" ++ label)

/-- The text of a value; `repr` raises where a number has too many digits. -/
def reprText (value : Json) : Except String String := (repr value).map String.ofList

/-- The text of a range. -/
def rangeText (range : Option (Json × Json)) : Except String String :=
  match range with
  | none => .ok "None"
  | some (low, high) => do
    let lowText ← reprText repr low
    let highText ← reprText repr high
    .ok ("(" ++ lowText ++ ", " ++ highText ++ ")")

/-- The case of a probe. -/
def boundaryCase (model : AppModel) (probe : AppModel.Field × String × Json) :
    Except String LogicTestCase := do
  let (field, label, value) := probe
  let text ← reprText repr value
  let range ← rangeText repr field.range
  .ok (restlerCase H model .boundary (boundaryTarget field label) (append_ne_empty _ field.name_ne)
    ("boundary probe " ++ field.name ++ "=" ++ text ++ " (" ++ label ++ ") outside range " ++ range)
    [(field.name, value)])

/-- The probes of all fields. -/
def boundaryProbes (model : AppModel) : List (AppModel.Field × String × Json) :=
  model.fields.flatMap fun field => (boundaryValues U F field).map fun probe => (field, probe)

/-- `SchemathesisStrategy`. -/
def schemathesisStrategy : LogicGenerationStrategy where
  strategyVersion := "1.0.0"
  generate model := (boundaryProbes U F model).mapM (boundaryCase repr H model)

/-! ## Invariants -/

/-- The groups of `_INVARIANT_RE`, with the blanks around them. -/
def invariantParts : List Regex :=
  let blanks := chars isSpace 0 none false
  let digits := plus (isDecimal U)
  [blanks, plus (fun c => isWord U c || c == '.'), blanks,
    alt (literal ">=".toList) (alt (literal "<=".toList) (alt (literal "==".toList)
      (alt (char '>') (char '<')))),
    blanks,
    seq (chars (· == '-') 0 (some 1) false)
      (seq digits (alt (seq (char '.') digits) (literal []))),
    blanks]

/-- `_INVARIANT_RE.match`: the left-hand side, the operator and the number. -/
def matchInvariant (expr : String) : Option (Str × Comparison × Str) :=
  match matchParts (isWord U) (invariantParts U) expr.toList with
  | some [_, lhs, _, op, _, number, _] => (Comparison.ofText? op).map fun op => (lhs, op, number)
  | _ => none

/-- The digits of a text as a number. -/
def decimalDigits (digits : Str) : ℕ :=
  digits.foldl (fun n c => 10 * n + (digit U c).getD 0) 0

/-- The number that a text of the third group stands for. -/
def decimalValue (number : Str) : ℚ :=
  let negative := startsWith number ['-']
  let (whole, places) := partition '.' (if negative then number.drop 1 else number)
  let digits : ℤ := decimalDigits U (whole ++ places)
  (if negative then -digits else digits : ℤ) / 10 ^ places.length

/-- `_violating_value`. -/
def violatingValue (op : Comparison) (bound : FloatRepr) (field : Option AppModel.Field) : Json :=
  let isInt := field.any (isIntField U)
  let num (value : FloatRepr) : Json :=
    if isInt && F.isInteger value then .int (truncate (F.value value)) else .float value
  match op with
  | .ge => num (F.add bound (-1))
  | .gt => num bound
  | .le => num (F.add bound 1)
  | .lt => num bound
  | .eq => num (F.add bound 1)

/-- What breaks an invariant: it, the name of the field and the value. -/
def violation (model : AppModel) (inv : AppModel.Invariant) :
    Option (AppModel.Invariant × String × Json) :=
  -- An invariant that is not about a number has no test.
  (matchInvariant U inv.expr).map fun (lhs, op, number) =>
    let name := String.ofList (rpartition '.' lhs).2
    let fields := Dict.ofItems (model.fields.map fun field => (field.name, field))
    (inv, name, violatingValue U F op (F.round (decimalValue U number)) (fields.get? name))

/-- The case of a violation. -/
def violationCase (model : AppModel) (violation : AppModel.Invariant × String × Json) :
    Except String LogicTestCase := do
  let (inv, name, value) := violation
  let text ← reprText repr value
  .ok (restlerCase H model .invariantViolation inv.id inv.id_ne
    ("violate invariant " ++ inv.id ++ " (" ++ inv.expr ++ "): set " ++ name ++ "=" ++ text)
    [(name, value)])

/-- `InvariantStrategy`. -/
def invariantStrategy : LogicGenerationStrategy where
  strategyVersion := "1.0.0"
  generate model := (model.invariants.filterMap (violation U F model)).mapM (violationCase repr H model)

/-- The strategies of `_GENERATOR`. -/
def logicStrategies : List LogicGenerationStrategy :=
  [restlerStrategy H, schemathesisStrategy U repr F H, invariantStrategy U repr F H]

/-- `LogicTestGenerator.generate_incremental`. -/
def generateIncremental (strategies : List LogicGenerationStrategy) (model : AppModel)
    (knownSignatures : List String) : Except String (List LogicTestCase) :=
  (generateAll strategies model).map fun cases => cases.filter (·.signature ∉ knownSignatures)

end Strategies

/-! ## The tests of a model -/

/-- A test, without what its case adds. -/
structure LogicTest where
  testClass : LogicTestClass
  target : String
  inputs : List (String × Json)

/-- The test of a case. -/
def LogicTestCase.test (case : LogicTestCase) : LogicTest := ⟨case.testClass, case.target, case.inputs⟩

namespace AppModel

/-- The target of a test that skips a transition. -/
def skipTarget (pair : Transition × Transition) : String := pair.1.id ++ ("->" ++ pair.2.id)

/-- The target of a test that calls a transition too early. -/
def orderTarget (pair : Transition × Transition) : String := pair.2.id ++ ("->" ++ pair.1.id)

/-- The tests of sequences. -/
def sequenceTests (model : AppModel) : List LogicTest :=
  (model.transitions.filter fun t => !t.idempotent).map (fun t =>
      ⟨.replay, t.id, [("repeat_endpoint", .text t.endpoint), ("times", .int 2)]⟩) ++
    (adjacentPairs model).map (fun pair => ⟨.skipStep, skipTarget pair,
      [("call", .text pair.2.endpoint), ("skip", .text pair.1.endpoint)]⟩) ++
    (adjacentPairs model).map fun pair => ⟨.outOfOrder, orderTarget pair,
      [("order", .list [.text pair.2.endpoint, .text pair.1.endpoint])]⟩

variable (U : Unicode) (F : FloatArithmetic) (model : AppModel)

/-- The tests of the fields. -/
def boundaryTests : List LogicTest :=
  (boundaryProbes U F model).map fun (field, label, value) =>
    ⟨.boundary, boundaryTarget field label, [(field.name, value)]⟩

/-- The tests of the invariants. -/
def violationTests : List LogicTest :=
  (model.invariants.filterMap (violation U F model)).map fun (inv, name, value) =>
    ⟨.invariantViolation, inv.id, [(name, value)]⟩

/-- The tests of the model. They do not depend on its digest. -/
def tests : List LogicTest :=
  model.sequenceTests ++ model.boundaryTests U F ++ model.violationTests U F

end AppModel

/-- The case belongs to the model, and is signed for it. -/
structure LogicTestCase.SignedFor (H : Sha256) (model : AppModel) (case : LogicTestCase) : Prop where
  digest : case.appModelDigest = model.digest
  signature : case.signature = computeSignature H model.digest case.testClass "1.0.0" case.target

section Spec

variable {U : Unicode} {repr : Json → Except String Str} {F : FloatArithmetic} {H : Sha256}
  {model : AppModel} {cases : List LogicTestCase}

theorem boundaryCase_eq_ok {probe : AppModel.Field × String × Json} {case : LogicTestCase}
    (h : boundaryCase repr H model probe = .ok case) :
    case.SignedFor H model ∧
      case.test = ⟨.boundary, boundaryTarget probe.1 probe.2.1, [(probe.1.name, probe.2.2)]⟩ := by
  simp only [boundaryCase, bind_eq_ok_iff] at h
  obtain ⟨_, -, _, -, h⟩ := h
  cases h
  exact ⟨⟨rfl, rfl⟩, rfl⟩

theorem violationCase_eq_ok {violation : AppModel.Invariant × String × Json} {case : LogicTestCase}
    (h : violationCase repr H model violation = .ok case) :
    case.SignedFor H model ∧
      case.test = ⟨.invariantViolation, violation.1.id, [(violation.2.1, violation.2.2)]⟩ := by
  simp only [violationCase, bind_eq_ok_iff] at h
  obtain ⟨_, -, h⟩ := h
  cases h
  exact ⟨⟨rfl, rfl⟩, rfl⟩

/-- What holds of every result of a traversal, and what it maps to. -/
theorem spec_of_mapM {α : Type} {f : α → Except String LogicTestCase} {test : α → LogicTest}
    {items : List α} (h : items.mapM f = .ok cases)
    (hf : ∀ item case, f item = .ok case → case.SignedFor H model ∧ case.test = test item) :
    (∀ case ∈ cases, case.SignedFor H model) ∧ cases.map LogicTestCase.test = items.map test := by
  have hforall := mapM_eq_ok_iff.mp h
  clear h
  induction hforall with
  | nil => exact ⟨nofun, rfl⟩
  | cons hcase _ ih =>
    obtain ⟨hsigned, htest⟩ := hf _ _ hcase
    exact ⟨List.forall_mem_cons.mpr ⟨hsigned, ih.1⟩, by rw [List.map_cons, List.map_cons, htest, ih.2]⟩

/-- **The cases** are those of the tests of the model, in their order, and signed for it. -/
theorem generateAll_spec (h : generateAll (logicStrategies U repr F H) model = .ok cases) :
    (∀ case ∈ cases, case.SignedFor H model) ∧
      cases.map LogicTestCase.test = model.tests U F := by
  unfold generateAll at h
  cases hlists : (logicStrategies U repr F H).mapM (LogicGenerationStrategy.generate · model) with
  | error error =>
    rw [hlists] at h
    cases h
  | ok lists =>
    rw [hlists] at h
    cases h
    -- One list of cases for each strategy.
    rcases mapM_eq_ok_iff.mp hlists with _ | ⟨hsequences, _ | ⟨hprobes, _ | ⟨hviolations, _ | _⟩⟩⟩
    cases hsequences
    obtain ⟨hprobes, hboundary⟩ := spec_of_mapM hprobes fun _ _ => boundaryCase_eq_ok
    obtain ⟨hviolations, hviolation⟩ := spec_of_mapM hviolations fun _ _ => violationCase_eq_ok
    constructor
    · simp only [List.flatten_cons, List.flatten_nil, List.append_nil, List.forall_mem_append]
      -- The three lists of the first strategy are maps.
      refine ⟨⟨⟨?_, ?_⟩, ?_⟩, hprobes, hviolations⟩
      all_goals
        intro case hcase
        obtain ⟨_, -, rfl⟩ := List.mem_map.mp hcase
        exact ⟨rfl, rfl⟩
    · simp only [List.flatten_cons, List.flatten_nil, List.append_nil, List.map_append, hboundary,
        hviolation]
      simp only [AppModel.tests, AppModel.sequenceTests, replayTests, skipTests, outOfOrderTests,
        List.map_map, List.append_assoc]
      rfl

/-- Generation returns where every value has a text. -/
theorem exists_generateAll (hrepr : ∀ value, ∃ text, repr value = .ok text) :
    ∃ cases, generateAll (logicStrategies U repr F H) model = .ok cases := by
  have htext : ∀ value, ∃ text, reprText repr value = .ok text := by
    intro value
    obtain ⟨text, htext⟩ := hrepr value
    exact ⟨String.ofList text, by rw [reprText, htext]; rfl⟩
  have hrange : ∀ range, ∃ text, rangeText repr range = .ok text := by
    rintro (_ | ⟨low, high⟩)
    · exact ⟨_, rfl⟩
    · obtain ⟨lowText, hlow⟩ := htext low
      obtain ⟨highText, hhigh⟩ := htext high
      exact ⟨_, bind_eq_ok_iff.mpr ⟨lowText, hlow, bind_eq_ok_iff.mpr ⟨highText, hhigh, rfl⟩⟩⟩
  obtain ⟨probes, hprobes⟩ : ∃ probes,
      (boundaryProbes U F model).mapM (boundaryCase repr H model) = .ok probes := by
    refine exists_mapM_eq_ok fun probe _ => ?_
    obtain ⟨text, htext⟩ := htext probe.2.2
    obtain ⟨range, hrange⟩ := hrange probe.1.range
    exact ⟨_, bind_eq_ok_iff.mpr ⟨text, htext, bind_eq_ok_iff.mpr ⟨range, hrange, rfl⟩⟩⟩
  obtain ⟨violations, hviolations⟩ : ∃ violations,
      (model.invariants.filterMap (violation U F model)).mapM (violationCase repr H model) =
        .ok violations := by
    refine exists_mapM_eq_ok fun violation _ => ?_
    obtain ⟨text, htext⟩ := htext violation.2.2
    exact ⟨_, bind_eq_ok_iff.mpr ⟨text, htext, rfl⟩⟩
  have hlists : (logicStrategies U repr F H).mapM (LogicGenerationStrategy.generate · model) =
      .ok [_, probes, violations] :=
    mapM_eq_ok_iff.mpr (.cons rfl (.cons hprobes (.cons hviolations .nil)))
  exact ⟨_, by rw [generateAll, hlists]; rfl⟩

end Spec

end SecOpent
