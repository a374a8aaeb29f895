import SecOpent.Python.Dict
import SecOpent.Python.Raising
import SecOpent.Python.Text

/-!
# The evaluator of assertions

`infrastructure/case_engine/ast_evaluator.py`. An expression is parsed by Python's own parser, and
its tree is walked: some nodes are evaluated, all others raise `ExpressionError`. What the operators do
is up to the objects that they meet.

## Main definitions

* `CaseError`: the errors of the case engine, and those of Python that it tells apart
* `Expr`: the nodes of a tree
* `Objects`: what the operators and functions of Python make of objects
* `Language.eval`: `_eval`
* `Language.evaluateExpression`: `evaluate_expression`
-/

namespace SecOpent

open Python

/-! ## Errors -/

/-- What the case engine raises, and the errors of Python that it tells apart. -/
inductive CaseError
  | expressionError (text : String)
  | interpreterError (text : String)
  | syntaxError (text : String)
  | typeError (text : String)
  | regexError (text : String)
  | recursionError
  | other (text : String)

/-- `str(exc)`. -/
def CaseError.text : CaseError → String
  | .expressionError text | .interpreterError text | .syntaxError text | .typeError text
  | .regexError text | .other text => text
  | .recursionError => "maximum recursion depth exceeded"

/-! ## Trees -/

/-- `ast.And` and `ast.Or`. -/
inductive BoolOp
  | and | or
  deriving DecidableEq

/-- The truth of a value with which it ends early. -/
def BoolOp.stops : BoolOp → Bool
  | .and => false
  | .or => true

/-- The operators of `ast.UnaryOp`. -/
inductive UnaryOp
  | not | usub | uadd | invert
  deriving DecidableEq

/-- The operators of `ast.Compare`. -/
inductive CompareOp
  | eq | notEq | lt | ltE | gt | gtE | isIn | notIn | isSame | isNot
  deriving DecidableEq

/-- The name of its class. -/
def CompareOp.name : CompareOp → String
  | .eq => "Eq"
  | .notEq => "NotEq"
  | .lt => "Lt"
  | .ltE => "LtE"
  | .gt => "Gt"
  | .gtE => "GtE"
  | .isIn => "In"
  | .notIn => "NotIn"
  | .isSame => "Is"
  | .isNot => "IsNot"

/-- The nodes of an expression: a constant comes with its value, and a node that the evaluator does not
know with the name of its class. -/
inductive Expr (V : Type)
  | constant (value : V)
  | list (elts : List (Expr V))
  | name (id : String)
  | boolOp (op : BoolOp) (values : List (Expr V))
  | unaryOp (op : UnaryOp) (operand : Expr V)
  | compare (left : Expr V) (comparisons : List (CompareOp × Expr V))
  | call (func : Expr V) (args : List (Expr V)) (keywords : Bool)
  | other (kind : String)

/-! ## Objects -/

/-- `HttpResponse`. -/
structure HttpResponse where
  statusCode : ℤ
  body : Str
  headers : Dict String Str

/-- Python's objects: how they are made, and what their operators do. An object that a context holds may
answer an operator in any way. -/
structure Objects (V : Type) where
  none : V
  ofBool : Bool → V
  ofInt : ℤ → V
  ofText : Str → V
  ofList : List V → V
  ofHeaders : Dict String Str → V
  ofResponse : HttpResponse → V
  /-- `isinstance(value, str)`, with the text. -/
  asText : V → Option Str
  /-- `bool(value)`. -/
  truth : V → Except CaseError Bool
  /-- `-value`. -/
  neg : V → Except CaseError V
  /-- `left == right` and the other rich comparisons. -/
  rich : CompareOp → V → V → Except CaseError V
  /-- `needle in haystack`. -/
  contains : V → V → Except CaseError Bool
  /-- `len(value)`. -/
  len : V → Except CaseError V
  /-- `str(value)`. -/
  str : V → Except CaseError Str

/-- What a regular expression found: the whole match, and its groups. -/
structure Match where
  whole : Str
  groups : List (Option Str)

/-- The objects, with the parser, the regular expressions and the tables of Python. -/
structure Language (V : Type) extends Objects V where
  /-- `ast.parse(expression, mode="eval").body`. -/
  parse : String → Except CaseError (Expr V)
  /-- `re.search(pattern, text)`. -/
  search : Str → Str → Except CaseError (Option Match)
  unicode : Unicode
  upperTable : Str → Str
  repr : String → String
  /-- The `TypeError` for a function that is called with so many arguments. -/
  arityError : String → ℕ → String

namespace Language

variable {V : Type} (py : Language V)

/-! ## The functions -/

/-- A function of one argument. -/
def unary (name : String) (f : V → Except CaseError V) : List V → Except CaseError V
  | [value] => f value
  | values => .error (.typeError (py.arityError name values.length))

/-- A function of two arguments. -/
def binary (name : String) (f : V → V → Except CaseError V) : List V → Except CaseError V
  | [first, second] => f first second
  | values => .error (.typeError (py.arityError name values.length))

/-- `_contains`. -/
def containsFunction (haystack needle : V) : Except CaseError V :=
  match py.contains haystack needle with
  | .ok found => .ok (py.ofBool found)
  | .error (.typeError text) =>
    .error (.expressionError ("contains() unsupported operand: " ++ text))
  | .error error => .error error

/-- `_matches`. -/
def matchesFunction (pattern text : V) : Except CaseError V :=
  match py.asText pattern with
  | .none => .error (.expressionError "matches() pattern must be a string")
  | some pattern =>
    let found := do
      let text ← py.str text
      py.search pattern text
    match found with
    | .ok found => .ok (py.ofBool found.isSome)
    | .error (.regexError text) => .error (.expressionError ("matches() invalid regex: " ++ text))
    | .error error => .error error

/-- `_starts_with`. -/
def startsWithFunction (text start : V) : Except CaseError V := do
  let text ← py.str text
  let start ← py.str start
  pure (py.ofBool (startsWith text start))

/-- `_ends_with`. -/
def endsWithFunction (text ending : V) : Except CaseError V := do
  let text ← py.str text
  let ending ← py.str ending
  pure (py.ofBool (endsWith text ending))

/-- `_FUNCTIONS`. A function of the module takes a frame, and `len` takes none. -/
def function? : String → Option (ℕ → List V → Except CaseError V)
  | "contains" => some fun n values =>
    frame .recursionError (fun _ => py.binary "_contains" py.containsFunction values) n
  | "len" => some fun _ values => py.unary "len" py.len values
  | "matches" => some fun n values =>
    frame .recursionError (fun _ => py.binary "_matches" py.matchesFunction values) n
  | "starts_with" => some fun n values =>
    frame .recursionError (fun _ => py.binary "_starts_with" py.startsWithFunction values) n
  | "ends_with" => some fun n values =>
    frame .recursionError (fun _ => py.binary "_ends_with" py.endsWithFunction values) n
  | "equals" => some fun n values =>
    frame .recursionError (fun _ => py.binary "<lambda>" (py.rich .eq) values) n
  | "lower" => some fun n values =>
    frame .recursionError (fun _ => py.unary "<lambda>"
      (fun value => (fun text => py.ofText (lower py.unicode text)) <$> py.str value) values) n
  | "upper" => some fun n values =>
    frame .recursionError (fun _ => py.unary "<lambda>"
      (fun value => (fun text => py.ofText (upper py.upperTable text)) <$> py.str value) values) n
  | _ => .none

/-- `func(*args)`: any error of a function becomes an `ExpressionError`. -/
def callFunction (func : ℕ → List V → Except CaseError V) (values : List V) (n : ℕ) :
    Except CaseError V :=
  match func n values with
  | .ok value => .ok value
  | .error (.expressionError text) => .error (.expressionError text)
  | .error error => .error (.expressionError ("assertion function failed: " ++ error.text))

/-! ## The operators -/

/-- `_COMPARE_OPS`: `in` and `not in` are functions of the module. -/
def compareOp? : CompareOp → Option (V → V → ℕ → Except CaseError V)
  | .isIn => some fun left right =>
    frame .recursionError fun _ => py.ofBool <$> py.contains right left
  | .notIn => some fun left right =>
    frame .recursionError fun _ => (fun found => py.ofBool !found) <$> py.contains right left
  | .isSame | .isNot => .none
  | op => some fun left right _ => py.rich op left right

/-- One comparison: a `TypeError` of the operator or of the truth of its answer becomes an
`ExpressionError`. -/
def compareOnce (op : V → V → ℕ → Except CaseError V) (left right : V) (n : ℕ) :
    Except CaseError Bool :=
  match (op left right n).bind py.truth with
  | .error (.typeError text) => .error (.expressionError ("invalid comparison: " ++ text))
  | result => result

/-- The value with which a `BoolOp` starts. -/
def start : BoolOp → V
  | .and => py.ofBool true
  | .or => py.ofBool false

/-! ## Evaluation -/

variable (context : Dict String V)

mutual

/-- `_eval`, with so many frames left. `_eval_boolop`, `_eval_unary`, `_eval_compare` and `_eval_call`
take one more. -/
def eval : Expr V → ℕ → Except CaseError V
  | _, 0 => .error .recursionError
  | .constant value, _ + 1 => .ok value
  | .list elts, n + 1 => do
    let items ← evalAll elts n
    pure (py.ofList items)
  | .name id, _ + 1 =>
    match context.get? id with
    | some value => .ok value
    | .none => .error (.expressionError ("unknown name in expression: " ++ py.repr id))
  | .boolOp op values, n + 1 =>
    frame .recursionError (fun n => evalBoolop op (py.start op) values n) n
  | .unaryOp op operand, n + 1 =>
    frame .recursionError (fun n =>
      match op with
      | .not => do
        let value ← eval operand n
        let holds ← py.truth value
        pure (py.ofBool !holds)
      | .usub => do
        let value ← eval operand n
        py.neg value
      | _ => .error (.expressionError "disallowed unary operator")) n
  | .compare left comparisons, n + 1 =>
    frame .recursionError (fun n => do
      let value ← eval left n
      evalCompare value comparisons n) n
  | .call func args keywords, n + 1 =>
    frame .recursionError (fun n =>
      if keywords then
        .error (.expressionError "keyword arguments are not allowed in assertions")
      else
        match func with
        | .name id =>
          match py.function? id with
          | .none =>
            .error (.expressionError ("function not allowed in assertions: " ++ py.repr id))
          | some func => do
            let values ← evalAll args n
            callFunction func values n
        | _ => .error (.expressionError "only direct whitelisted function calls are allowed")) n
  | .other kind, _ + 1 =>
    .error (.expressionError ("disallowed expression construct: " ++ kind))

/-- The values of some trees, from left to right. -/
def evalAll : List (Expr V) → ℕ → Except CaseError (List V)
  | [], _ => .ok []
  | elt :: elts, n => do
    let value ← eval elt n
    let values ← evalAll elts n
    pure (value :: values)

/-- The loop of `_eval_boolop`. -/
def evalBoolop (op : BoolOp) (result : V) : List (Expr V) → ℕ → Except CaseError V
  | [], _ => .ok result
  | value :: values, n => do
    let result ← eval value n
    let holds ← py.truth result
    if holds = op.stops then pure result
    else evalBoolop op result values n

/-- The loop of `_eval_compare`. -/
def evalCompare (left : V) : List (CompareOp × Expr V) → ℕ → Except CaseError V
  | [], _ => .ok (py.ofBool true)
  | (op, comparator) :: comparisons, n =>
    match py.compareOp? op with
    | .none => .error (.expressionError ("disallowed comparison: " ++ op.name))
    | some compare => do
      let right ← eval comparator n
      let holds ← py.compareOnce compare left right n
      if holds then evalCompare right comparisons n
      else pure (py.ofBool false)

end

/-- `evaluate_expression`. -/
def evaluateExpression (expression : String) : ℕ → Except CaseError V :=
  frame .recursionError fun n =>
    match py.parse expression with
    | .ok tree => py.eval context tree n
    | .error (.syntaxError text) =>
      .error (.expressionError ("invalid expression syntax: " ++ text))
    | .error error => .error error

end Language

end SecOpent
