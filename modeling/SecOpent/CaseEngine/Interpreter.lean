import SecOpent.CaseEngine.AstEvaluator
import SecOpent.Cases.Models

/-!
# The case interpreter

`infrastructure/case_engine/interpreter.py`: `CaseInterpreter.run` refuses a case with a denied step,
takes the steps one after the other, each after a look at its bound, and then evaluates the assertions
on what the steps have stored. The requests of a case are made on a context outside; its answer may
depend on all requests so far.

## Main definitions

* `CaseInterpreter`: the interpreter, with the language and the context
* `checkCaps`, `executeStep`, `runSteps`, `runAssertions`, `run`: its functions
* `GetsPast`: a run gets past a step of its case

## Main results

* `runSteps_append`: the steps of a case one part after the other
* `GetsPast.checkCaps`: what a run gets past has passed the look at its bound
* `run_of_runSteps`: a run whose steps are done is what the assertions make of the store
-/

namespace SecOpent

open Python

/-- `FOREACH_LIMIT_CAP`. -/
def foreachLimitCap : ℤ := 100

/-- `RETRY_LIMIT_CAP`. -/
def retryLimitCap : ℤ := 10

/-- `WAIT_SECONDS_CAP`. -/
def waitSecondsCap : ℤ := 300

/-- The integer that `isinstance(value, int)` finds: a boolean is one too. -/
def jsonInt : Json → Option ℤ
  | .bool value => some (if value then 1 else 0)
  | .int value => some value
  | _ => none

/-- `step.spec.get("limit") or step.spec.get("max")`. -/
def CaseStep.retries (step : CaseStep) : Option Json :=
  if step.gives "limit" then step.spec.get? "limit" else step.spec.get? "max"

/-- `CaseInterpreter`, with the frames of the stack that are left for it. -/
structure CaseInterpreter (V : Type) where
  py : Language V
  /-- `str` of a value that is no text. -/
  jsonRepr : Json → Str
  /-- `http_request`, given the method and the URL of all requests so far, the last of which is made. -/
  httpRequest : List (Str × Str) → Except CaseError HttpResponse
  frames : ℕ

/-- What the steps of a run have stored, and the requests that they have made. -/
structure CaseRunState (V : Type) where
  store : Dict String V := .empty
  requests : List (Str × Str) := []

/-- `InterpreterResult`. -/
structure InterpreterResult (V : Type) where
  passed : Bool
  assertionResults : Dict String Bool
  context : Dict String V

namespace CaseInterpreter

variable {V : Type} (interpreter : CaseInterpreter V)

/-- `_verb`. -/
def verb (step : CaseStep) : Str := verbOf interpreter.py.unicode step.action

/-- `raise InterpreterError(text)` where a value is an integer above a cap. -/
def checkCap (value : Option Json) (cap : ℤ) (text : String → String) : Except CaseError Unit :=
  match value.bind jsonInt with
  | some n =>
    if cap < n then .error (.interpreterError (text (String.ofList (intRepr n)))) else .ok ()
  | none => .ok ()

/-- `_check_caps`. -/
def checkCaps (step : CaseStep) : Except CaseError Unit :=
  if interpreter.verb step = "foreach".toList then
    checkCap (step.spec.get? "limit") foreachLimitCap
      fun limit => "foreach limit " ++ limit ++ " exceeds cap 100"
  else if interpreter.verb step = "retry".toList then
    checkCap step.retries retryLimitCap fun retries => "retry count " ++ retries ++ " exceeds cap 10"
  else if interpreter.verb step = "wait".toList then
    checkCap (step.spec.get? "seconds") waitSecondsCap
      fun seconds => "wait " ++ seconds ++ "s exceeds cap 300s"
  else .ok ()

/-- `str(step.spec.get(key, default))`. -/
def specText (step : CaseStep) (key : String) (default : Str) : Str :=
  ((step.spec.get? key).map (strOf interpreter.jsonRepr)).getD default

/-- The URL of a request. -/
def urlOf (step : CaseStep) : Str :=
  if step.gives "url" then interpreter.specText step "url" []
  else interpreter.specText step "base_url" [] ++ interpreter.specText step "path" []

/-- `_execute_http`. -/
def executeHttp (step : CaseStep) (state : CaseRunState V) : Except CaseError (CaseRunState V) := do
  let method := upper interpreter.py.upperTable (interpreter.specText step "method" "GET".toList)
  let requests := state.requests ++ [(method, interpreter.urlOf step)]
  let response ← interpreter.httpRequest requests
  let py := interpreter.py
  let store := state.store.set "status_code" (py.ofInt response.statusCode)
  let store := store.set "body" (py.ofText response.body)
  let store := store.set "headers" (py.ofHeaders response.headers)
  pure { store := store.set step.id (py.ofResponse response), requests }

/-- What a match leaves in the variable of a step: its first group, if it has groups. -/
def capture : Option Match → V
  | none => interpreter.py.ofText []
  | some found =>
    match found.groups with
    | [] => interpreter.py.ofText found.whole
    | group :: _ => (group.map interpreter.py.ofText).getD interpreter.py.none

/-- `_execute_extract_regex`. -/
def executeExtractRegex (step : CaseStep) (state : CaseRunState V) :
    Except CaseError (CaseRunState V) :=
  let py := interpreter.py
  let source :=
    (state.store.get? (String.ofList (interpreter.specText step "source" []))).getD (py.ofText [])
  let pattern := interpreter.specText step "pattern" []
  let var := interpreter.specText step "var" []
  if var = [] then
    .error (.interpreterError "extract.regex requires a 'var' to store the capture")
  else
    let found := do
      let text ← py.str source
      py.search pattern text
    match found with
    | .ok found =>
      .ok { state with store := state.store.set (String.ofList var) (interpreter.capture found) }
    | .error (.regexError text) =>
      .error (.interpreterError ("extract.regex invalid pattern: " ++ text))
    | .error error => .error error

/-- `_CONTROL_VERBS`. -/
def controlVerbs : List Str :=
  ["foreach".toList, "retry".toList, "wait".toList, "condition".toList]

/-- `_execute_step`. -/
def executeStep (step : CaseStep) (state : CaseRunState V) : Except CaseError (CaseRunState V) :=
  let verb := interpreter.verb step
  let action := lower interpreter.py.unicode step.action.toList
  if verb = "request".toList ∧ startsWith action "http".toList then interpreter.executeHttp step state
  else if verb = "regex".toList ∧ startsWith action "extract".toList then
    interpreter.executeExtractRegex step state
  else if verb ∈ controlVerbs then .ok state
  else .error (.interpreterError ("unsupported action in this interpreter: " ++ step.action))

/-- The loop of `run` over the steps of a case. -/
def runSteps : List CaseStep → CaseRunState V → Except CaseError (CaseRunState V)
  | [], state => .ok state
  | step :: steps, state => do
    interpreter.checkCaps step
    let state ← interpreter.executeStep step state
    runSteps steps state

/-- `bool(evaluate_expression(...))`, which is false where there is an `ExpressionError`. -/
def assertionResult (store : Dict String V) (assertion : CaseAssertion) : Except CaseError Bool :=
  let holds := do
    let value ← interpreter.py.evaluateExpression store assertion.expression interpreter.frames
    interpreter.py.truth value
  match holds with
  | .error (.expressionError _) => .ok false
  | result => result

/-- The loop of `run` over the assertions of a case. -/
def runAssertions (store : Dict String V) (assertions : List CaseAssertion) :
    Except CaseError (Dict String Bool) :=
  assertions.foldlM (fun results assertion => do
    let holds ← interpreter.assertionResult store assertion
    pure (results.set assertion.id holds)) .empty

/-- The steps that `compute_risk` lets through. -/
def accepts (case : CaseDefinition) : Bool :=
  (computeRisk interpreter.py.unicode interpreter.py.upperTable case).isSome

/-- `run`. -/
def run (case : CaseDefinition) : Except CaseError (InterpreterResult V) := do
  if !interpreter.accepts case then
    .error (.interpreterError ("case " ++ case.id ++ " uses a deny-listed action (Shell / dynamic " ++
      "import / out-of-scope target / unbounded loop) and cannot run"))
  else
    let state ← interpreter.runSteps case.steps {}
    let assertionResults ← interpreter.runAssertions state.store case.assertions
    pure { passed := assertionResults.values.all id, assertionResults, context := state.store }

/-- A run gets past a step of its case: the step is done, and the run goes on behind it. -/
def GetsPast (case : CaseDefinition) (step : CaseStep) : Prop :=
  interpreter.accepts case = true ∧ ∃ before after state,
    case.steps = before ++ step :: after ∧ interpreter.runSteps (before ++ [step]) {} = .ok state

variable {interpreter : CaseInterpreter V} {case : CaseDefinition} {step : CaseStep}
  {steps steps' : List CaseStep} {state final : CaseRunState V}

/-- The steps of a case one part after the other. -/
theorem runSteps_append :
    interpreter.runSteps (steps ++ steps') state =
      interpreter.runSteps steps state >>= interpreter.runSteps steps' := by
  induction steps generalizing state with
  | nil => rfl
  | cons step steps ih =>
    rw [List.cons_append, runSteps, runSteps]
    cases interpreter.checkCaps step with
    | error error => rfl
    | ok _ =>
      cases interpreter.executeStep step state with
      | error error => rfl
      | ok next => exact ih

theorem runSteps_concat_eq_ok_iff :
    interpreter.runSteps (steps ++ [step]) state = .ok final ↔
      ∃ mid, interpreter.runSteps steps state = .ok mid ∧ interpreter.checkCaps step = .ok () ∧
        interpreter.executeStep step mid = .ok final := by
  rw [runSteps_append]
  cases interpreter.runSteps steps state with
  | error error => simp [bind, Except.bind]
  | ok mid =>
    show interpreter.runSteps [step] mid = _ ↔ _
    rw [runSteps]
    cases interpreter.checkCaps step with
    | error error => simp [bind, Except.bind]
    | ok _ =>
      cases hstep : interpreter.executeStep step mid with
      | error error => simp [bind, Except.bind, hstep]
      | ok next => simp [bind, Except.bind, runSteps, hstep]

/-- What a run gets past has passed the look at its bound. -/
theorem GetsPast.checkCaps (h : interpreter.GetsPast case step) :
    interpreter.checkCaps step = .ok () := by
  obtain ⟨-, before, after, state, -, hsteps⟩ := h
  -- The last of the steps that are done is this one.
  obtain ⟨mid, -, hcaps, -⟩ := runSteps_concat_eq_ok_iff.mp hsteps
  exact hcaps

/-- A run whose steps are done is what the assertions make of the store. -/
theorem run_of_runSteps (haccepts : interpreter.accepts case = true)
    (hsteps : interpreter.runSteps case.steps {} = .ok state) :
    interpreter.run case =
      interpreter.runAssertions state.store case.assertions >>= fun assertionResults =>
        pure
          { passed := assertionResults.values.all id
            assertionResults
            context := state.store } := by
  rw [run, haccepts, hsteps]
  rfl

end CaseInterpreter

end SecOpent
