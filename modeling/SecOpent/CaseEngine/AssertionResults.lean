import SecOpent.CaseEngine.Evaluation
import SecOpent.CaseEngine.Interpreter
import SecOpent.Cases.Signing

/-!
# What the assertions of a case answer

`run` takes an `ExpressionError` for an answer, and lets any other error through. The evaluator makes an
`ExpressionError` of what a comparison and what a function raises, but neither of what `-` raises for an
object that is no number, nor of what the parser raises beside `SyntaxError`.

## Main definitions

* `ReachesAssertions`: the steps of a run are done
* `Answered`: a run that reaches its assertions gives each of them a Boolean
* `GuardedAssertion`: the evaluation of an assertion reaches nothing that is let through

## Main results

* `exists_assertionResult_iff`: when an assertion gets a Boolean
* `evaluation_settled_iff`: exactly when evaluation answers or raises `ExpressionError`, and exactly
  when a run gives each assertion a Boolean
-/

namespace SecOpent

open Python

namespace CaseInterpreter

variable {V : Type} (interpreter : CaseInterpreter V)

/-- The steps of a run are done, and have stored this. -/
def ReachesAssertions (case : CaseDefinition) (state : CaseRunState V) : Prop :=
  interpreter.accepts case = true ∧ interpreter.runSteps case.steps {} = .ok state

/-- A run that reaches its assertions gives each of them a Boolean. -/
def Answered (case : CaseDefinition) : Prop :=
  ∀ state, interpreter.ReachesAssertions case state → ∃ result, interpreter.run case = .ok result ∧
    ∀ assertion ∈ case.assertions, ∃ holds, result.assertionResults.get? assertion.id = some holds

/-- The evaluation of the assertion reaches nothing that is let through, and its value is true or
false. -/
def GuardedAssertion (store : Dict String V) (assertion : CaseAssertion) : Prop :=
  interpreter.py.GuardedExpression store assertion.expression interpreter.frames ∧
    ∀ value,
      interpreter.py.EvaluatesExpression store assertion.expression interpreter.frames value →
      Settled (interpreter.py.truth value)

variable {interpreter} {store : Dict String V} {assertion : CaseAssertion}
  {assertions : List CaseAssertion} {case : CaseDefinition} {state : CaseRunState V}

/-- **An assertion gets a Boolean** exactly if it is guarded. -/
theorem exists_assertionResult_iff :
    (∃ holds, interpreter.assertionResult store assertion = .ok holds) ↔
      interpreter.GuardedAssertion store assertion := by
  -- The value and its truth are one computation, inside one `try`.
  unfold GuardedAssertion assertionResult
  simp only [← Language.evaluateExpression_eq_ok_iff]
  rw [← Language.settled_evaluateExpression_iff, ← settled_bind_iff]
  generalize hholds : (interpreter.py.evaluateExpression store assertion.expression
    interpreter.frames >>= interpreter.py.truth) = holds
  cases holds with
  | ok holds => simp
  | error error =>
    cases error with
    | _ => simp [CaseError.IsExpression]

/-- Every assertion has its entry in the results. -/
theorem exists_get?_of_foldlM {results final : Dict String Bool}
    (h : assertions.foldlM (fun results assertion => do
      let holds ← interpreter.assertionResult store assertion
      pure (results.set assertion.id holds)) results = .ok final) :
    (∀ id, (results.get? id).isSome → (final.get? id).isSome) ∧
      ∀ assertion ∈ assertions, (final.get? assertion.id).isSome := by
  induction assertions generalizing results with
  | nil =>
    cases h
    simp
  | cons assertion assertions ih =>
    rw [List.foldlM_cons] at h
    cases hresult : interpreter.assertionResult store assertion with
    | error error =>
      rw [hresult] at h
      cases h
    | ok holds =>
      rw [hresult] at h
      obtain ⟨hkept, hall⟩ := ih h
      -- What is set stays, whatever is set later.
      have hset : ∀ id, id = assertion.id ∨ (results.get? id).isSome → (final.get? id).isSome := by
        intro id hid
        refine hkept id ?_
        rw [Dict.get?_set]
        split
        next => rfl
        next hne => exact hid.resolve_left hne
      refine ⟨fun id hid => hset id (.inr hid), List.forall_mem_cons.mpr ⟨hset _ (.inl rfl), hall⟩⟩

theorem exists_runAssertions_iff :
    (∃ results, interpreter.runAssertions store assertions = .ok results) ↔
      ∀ assertion ∈ assertions, interpreter.GuardedAssertion store assertion := by
  refine (exists_foldlM_iff (fun (results : Dict String Bool) (assertion : CaseAssertion) holds =>
    results.set assertion.id holds) (interpreter.assertionResult store)).trans ?_
  exact forall₂_congr fun assertion _ => exists_assertionResult_iff

/-- A run that reaches its assertions returns exactly if all of them are guarded. -/
theorem exists_run_iff (hreaches : interpreter.ReachesAssertions case state) :
    (∃ result, interpreter.run case = .ok result ∧ ∀ assertion ∈ case.assertions,
        ∃ holds, result.assertionResults.get? assertion.id = some holds) ↔
      ∀ assertion ∈ case.assertions, interpreter.GuardedAssertion state.store assertion := by
  -- The steps are done, so what is left of the run is the loop over the assertions.
  rw [← exists_runAssertions_iff, run_of_runSteps hreaches.1 hreaches.2]
  constructor
  · rintro ⟨result, hrun, -⟩
    cases hresults : interpreter.runAssertions state.store case.assertions with
    | error error =>
      rw [hresults] at hrun
      cases hrun
    | ok results => exact ⟨results, rfl⟩
  · rintro ⟨results, hresults⟩
    rw [hresults]
    refine ⟨_, rfl, fun assertion hassertion => ?_⟩
    exact Option.isSome_iff_exists.mp ((exists_get?_of_foldlM hresults).2 assertion hassertion)

/-- **When evaluation answers.** An expression gives a value or `ExpressionError` exactly if it parses
or has a syntax error, and no operation that its evaluation reaches raises an error that is let through;
and a run gives each of its assertions a Boolean exactly if this is so for all of them. -/
theorem evaluation_settled_iff (interpreter : CaseInterpreter V) :
    (∀ expression context n,
      Settled (interpreter.py.evaluateExpression context expression n) ↔
        interpreter.py.GuardedExpression context expression n) ∧
    ∀ case, interpreter.Answered case ↔
      ∀ state, interpreter.ReachesAssertions case state →
        ∀ assertion ∈ case.assertions, interpreter.GuardedAssertion state.store assertion := by
  refine ⟨fun _ _ _ => Language.settled_evaluateExpression_iff, fun case => ?_⟩
  exact forall₂_congr fun state hreaches => exists_run_iff hreaches

end CaseInterpreter

/-! ## A text that is negated -/

/-- Some objects of Python: what a run of the interpreter stores. -/
inductive PlainValue
  | none
  | bool (value : Bool)
  | int (value : ℤ)
  | text (value : Str)
  | list (items : List PlainValue)
  | headers (value : Dict String Str)
  | response (value : HttpResponse)

namespace PlainValue

/-- `bool(value)`. -/
def truth : PlainValue → Bool
  | .none => false
  | .bool value => value
  | .int value => value != 0
  | .text value => !value.isEmpty
  | .list items => !items.isEmpty
  | .headers value => !value.items.isEmpty
  | .response _ => true

/-- `-value`: only numbers have a negative. -/
def neg : PlainValue → Except CaseError PlainValue
  | .bool value => .ok (.int (if value then -1 else 0))
  | .int value => .ok (.int (-value))
  | _ => .error (.typeError "bad operand type for unary -")

/-- The rich comparisons of integers and texts; other objects are not ordered. -/
def rich : CompareOp → PlainValue → PlainValue → Except CaseError PlainValue
  | .eq, .int a, .int b => .ok (.bool (a = b))
  | .eq, .text a, .text b => .ok (.bool (a = b))
  | .eq, _, _ => .ok (.bool false)
  | .notEq, .int a, .int b => .ok (.bool (a ≠ b))
  | .notEq, .text a, .text b => .ok (.bool (a ≠ b))
  | .notEq, _, _ => .ok (.bool true)
  | .lt, .int a, .int b => .ok (.bool (a < b))
  | .ltE, .int a, .int b => .ok (.bool (a ≤ b))
  | .gt, .int a, .int b => .ok (.bool (b < a))
  | .gtE, .int a, .int b => .ok (.bool (b ≤ a))
  | _, _, _ => .error (.typeError "unorderable types")

end PlainValue

/-- These objects, with a parser that knows one expression. -/
def plainLanguage : Language PlainValue where
  none := .none
  ofBool := .bool
  ofInt := .int
  ofText := .text
  ofList := .list
  ofHeaders := .headers
  ofResponse := .response
  asText
    | .text value => some value
    | _ => Option.none
  truth value := .ok value.truth
  neg := PlainValue.neg
  rich := PlainValue.rich
  contains
    | .text text, .text part => .ok (decide (part <:+: text))
    | .headers headers, .text key => .ok (headers.get? (String.ofList key)).isSome
    | _, _ => .error (.typeError "argument is not iterable")
  len
    | .text value => .ok (.int value.length)
    | .list items => .ok (.int items.length)
    | .headers value => .ok (.int value.items.length)
    | _ => .error (.typeError "object has no len()")
  str
    | .text value => .ok value
    | .int value => .ok (intRepr value)
    | _ => .ok []
  parse expression :=
    if expression = "-body" then .ok (.unaryOp .usub (.name "body"))
    else .error (.syntaxError "invalid syntax")
  search _ _ := .ok Option.none
  unicode := .ascii
  upperTable := id
  repr := id
  arityError name _ := name

/-- The interpreter, on a server that says it is well. -/
def plainInterpreter : CaseInterpreter PlainValue where
  py := plainLanguage
  jsonRepr _ := []
  httpRequest _ := .ok ⟨200, "ok".toList, .empty⟩
  frames := 900

/-- A case that makes a request and negates the text of the answer. -/
def negatingCase : CaseDefinition :=
  { lookupCase with
    steps := [{ deleteStep with spec := .ofItems [("url", .text "https://x.test/")] }]
    assertions := [⟨"a1", "-body", by decide, by decide⟩]
    steps_ne := List.cons_ne_nil _ _ }

/-- **A text that is negated** raises `TypeError`, and the run ends there. -/
theorem negated_text_escapes :
    ¬((∀ expression context,
        Settled (plainLanguage.evaluateExpression context expression plainInterpreter.frames)) ∧
      plainInterpreter.Answered negatingCase) := by
  rintro ⟨-, hanswered⟩
  -- The request is made, and the assertion is reached.
  obtain ⟨result, hrun, -⟩ := hanswered _ ⟨rfl, rfl⟩
  have herror : plainInterpreter.run negatingCase =
      .error (.typeError "bad operand type for unary -") := rfl
  cases herror.symm.trans hrun

end SecOpent
