import SecOpent.CaseEngine.AstEvaluator
import SecOpent.Python.Table

/-!
# What assertions mean

The values of expressions as rules: a tree has a value when its parts have theirs and the operation at
its root has a result, and what raises has none. `_eval` computes these values. So whether it raises
anything but `ExpressionError` is a matter of the operations that are reached: a `-` or a `not` at the
value of its operand, the truth of the values of an `and` or an `or`, and a comparison of two values.
Function calls are not among them, for `_eval_call` turns every error into an `ExpressionError`.

## Main definitions

* `Evaluates`: with so many frames left, a tree has a value
* `EvaluatesExpression`: so has the text of an expression
* `Settled`: a computation returns or raises `ExpressionError`
* `Guarded`: no operation that evaluation reaches raises an error that the code lets through

## Main results

* `eval_eq_ok_iff`: the evaluator returns the value of a tree
* `settled_eval_iff`: a tree gives a value or `ExpressionError` exactly if it is guarded
* `settled_evaluateExpression_iff`: and so does an expression
-/

namespace SecOpent

open Python

/-! ## Errors -/

/-- The one error that evaluation may raise. -/
def CaseError.IsExpression : CaseError → Prop
  | .expressionError _ => True
  | _ => False

/-- What the handler of a comparison makes an `ExpressionError`, or leaves as one. -/
def CaseError.IsCaught : CaseError → Prop
  | .typeError _ | .expressionError _ => True
  | _ => False

/-- The computation returns or raises `ExpressionError`. -/
def Settled {α : Type} (x : Except CaseError α) : Prop := RaisesOnly CaseError.IsExpression x

section Settled

variable {α β : Type} {x : Except CaseError α} {f : α → Except CaseError β}
  {body : ℕ → Except CaseError α} {error : CaseError} {n : ℕ}

@[simp] theorem settled_ok {a : α} : Settled (.ok a) := raisesOnly_ok

@[simp] theorem settled_pure {a : α} : Settled (pure a) := raisesOnly_pure

@[simp] theorem settled_error_iff :
    Settled (.error error : Except CaseError α) ↔ error.IsExpression := raisesOnly_error_iff

theorem settled_expressionError {text : String} :
    Settled (.error (.expressionError text) : Except CaseError α) := settled_error_iff.mpr trivial

theorem settled_bind_iff :
    Settled (x >>= f) ↔ Settled x ∧ ∀ a, x = .ok a → Settled (f a) := raisesOnly_bind_iff

/-- What runs out of the stack is not settled. -/
theorem settled_frame_iff :
    Settled (frame .recursionError body n) ↔ Framed (fun n => Settled (body n)) n :=
  raisesOnly_frame_iff nofun

end Settled

namespace Language

variable {V : Type}

/-! ## Values -/

mutual

/-- With so many frames left, the tree has this value. A node that calls a function of the evaluator has
one frame less for its parts than a node that does not. -/
inductive Evaluates (py : Language V) (context : Dict String V) : ℕ → Expr V → V → Prop
  | constant {n : ℕ} {value : V} : Evaluates py context (n + 1) (.constant value) value
  | list {n : ℕ} {elts : List (Expr V)} {items : List V}
      (helts : EvaluatesAll py context n elts items) :
    Evaluates py context (n + 1) (.list elts) (py.ofList items)
  | name {n : ℕ} {id : String} {value : V} (hget : context.get? id = some value) :
    Evaluates py context (n + 1) (.name id) value
  | boolOp {n : ℕ} {op : BoolOp} {values : List (Expr V)} {result : V}
      (hvalues : EvaluatesBoolop py context n op (py.start op) values result) :
    Evaluates py context (n + 2) (.boolOp op values) result
  | not {n : ℕ} {operand : Expr V} {value : V} {holds : Bool}
      (hoperand : Evaluates py context n operand value) (htruth : py.truth value = .ok holds) :
    Evaluates py context (n + 2) (.unaryOp .not operand) (py.ofBool !holds)
  | usub {n : ℕ} {operand : Expr V} {value result : V}
      (hoperand : Evaluates py context n operand value) (hneg : py.neg value = .ok result) :
    Evaluates py context (n + 2) (.unaryOp .usub operand) result
  | compare {n : ℕ} {left : Expr V} {comparisons : List (CompareOp × Expr V)} {value result : V}
      (hleft : Evaluates py context n left value)
      (hcomparisons : EvaluatesCompare py context n value comparisons result) :
    Evaluates py context (n + 2) (.compare left comparisons) result
  | call {n : ℕ} {id : String} {args : List (Expr V)} {func : ℕ → List V → Except CaseError V}
      {values : List V} {result : V} (hfunc : py.function? id = some func)
      (hargs : EvaluatesAll py context n args values) (hresult : func n values = .ok result) :
    Evaluates py context (n + 2) (.call (.name id) args false) result

/-- The trees have these values, one after the other. -/
inductive EvaluatesAll (py : Language V) (context : Dict String V) :
    ℕ → List (Expr V) → List V → Prop
  | nil {n : ℕ} : EvaluatesAll py context n [] []
  | cons {n : ℕ} {elt : Expr V} {elts : List (Expr V)} {value : V} {values : List V}
      (helt : Evaluates py context n elt value) (helts : EvaluatesAll py context n elts values) :
    EvaluatesAll py context n (elt :: elts) (value :: values)

/-- After the first value, an `and` or an `or` of the others has this result: the first value of the
truth that stops it, or the last one. -/
inductive EvaluatesBoolop (py : Language V) (context : Dict String V) :
    ℕ → BoolOp → V → List (Expr V) → V → Prop
  | nil {n : ℕ} {op : BoolOp} {result : V} : EvaluatesBoolop py context n op result [] result
  | stop {n : ℕ} {op : BoolOp} {first result : V} {value : Expr V} {values : List (Expr V)}
      (hvalue : Evaluates py context n value result) (htruth : py.truth result = .ok op.stops) :
    EvaluatesBoolop py context n op first (value :: values) result
  | next {n : ℕ} {op : BoolOp} {first second result : V} {value : Expr V} {values : List (Expr V)}
      (hvalue : Evaluates py context n value second) (htruth : py.truth second = .ok !op.stops)
      (hvalues : EvaluatesBoolop py context n op second values result) :
    EvaluatesBoolop py context n op first (value :: values) result

/-- The comparisons of a value with the next ones have this result: false at the first that fails. -/
inductive EvaluatesCompare (py : Language V) (context : Dict String V) :
    ℕ → V → List (CompareOp × Expr V) → V → Prop
  | nil {n : ℕ} {left : V} : EvaluatesCompare py context n left [] (py.ofBool true)
  | fails {n : ℕ} {left right : V} {op : CompareOp} {compare : V → V → ℕ → Except CaseError V}
      {comparator : Expr V} {comparisons : List (CompareOp × Expr V)}
      (hop : py.compareOp? op = some compare) (hright : Evaluates py context n comparator right)
      (hfails : (compare left right n).bind py.truth = .ok false) :
    EvaluatesCompare py context n left ((op, comparator) :: comparisons) (py.ofBool false)
  | holds {n : ℕ} {left right result : V} {op : CompareOp}
      {compare : V → V → ℕ → Except CaseError V} {comparator : Expr V}
      {comparisons : List (CompareOp × Expr V)} (hop : py.compareOp? op = some compare)
      (hright : Evaluates py context n comparator right)
      (hholds : (compare left right n).bind py.truth = .ok true)
      (hcomparisons : EvaluatesCompare py context n right comparisons result) :
    EvaluatesCompare py context n left ((op, comparator) :: comparisons) result

end

/-- The text parses, and its tree has this value. -/
def EvaluatesExpression (py : Language V) (context : Dict String V) (expression : String) (n : ℕ)
    (value : V) : Prop :=
  Framed (fun n => ∃ tree, py.parse expression = .ok tree ∧ py.Evaluates context n tree value) n

section Values

variable {py : Language V} {context : Dict String V}

theorem callFunction_eq_ok_iff {func : ℕ → List V → Except CaseError V} {values : List V} {n : ℕ}
    {value : V} : callFunction func values n = .ok value ↔ func n values = .ok value := by
  unfold callFunction
  cases func n values with
  | ok value => rfl
  | error error => cases error <;> simp

theorem compareOnce_eq_ok_iff {op : V → V → ℕ → Except CaseError V} {left right : V} {n : ℕ}
    {holds : Bool} :
    py.compareOnce op left right n = .ok holds ↔ (op left right n).bind py.truth = .ok holds := by
  unfold compareOnce
  cases (op left right n).bind py.truth with
  | ok holds => rfl
  | error error => cases error <;> simp

mutual

/-- **The evaluator returns the value of a tree**, and returns where the tree has one. -/
theorem eval_eq_ok_iff (tree : Expr V) (n : ℕ) (value : V) :
    py.eval context tree n = .ok value ↔ py.Evaluates context n tree value := by
  -- Both directions at once, by induction on the tree: a node returns by the rule of its kind.
  match tree, n with
  | _, 0 =>
    rw [eval]
    exact iff_of_false nofun nofun
  | .constant found, n + 1 =>
    rw [eval]
    constructor
    · rintro ⟨⟩
      exact .constant
    · rintro ⟨⟩
      rfl
  | .name id, n + 1 =>
    rw [eval]
    constructor
    · intro h
      split at h
      next found hget =>
        cases h
        exact .name hget
      next => cases h
    · intro h
      cases h with
      | name hget => rw [hget]
  | .other kind, n + 1 =>
    rw [eval]
    exact iff_of_false nofun nofun
  | .list elts, n + 1 =>
    rw [eval, bind_eq_ok_iff]
    constructor
    · rintro ⟨items, hitems, ⟨⟩⟩
      exact .list ((evalAll_eq_ok_iff elts n items).mp hitems)
    · intro h
      cases h with
      | list helts => exact ⟨_, (evalAll_eq_ok_iff elts n _).mpr helts, rfl⟩
  | .boolOp op values, n + 1 =>
    rw [eval, frame_eq_ok_iff]
    constructor
    · rintro ⟨n, rfl, hvalues⟩
      exact .boolOp ((evalBoolop_eq_ok_iff op (py.start op) values n value).mp hvalues)
    · intro h
      cases h with
      | boolOp hvalues =>
        exact ⟨_, rfl, (evalBoolop_eq_ok_iff op (py.start op) values _ value).mpr hvalues⟩
  | .unaryOp op operand, n + 1 =>
    rw [eval, frame_eq_ok_iff]
    cases op with
    | not =>
      constructor
      · rintro ⟨n, rfl, h⟩
        obtain ⟨found, hoperand, h⟩ := bind_eq_ok_iff.mp h
        obtain ⟨holds, htruth, ⟨⟩⟩ := bind_eq_ok_iff.mp h
        exact .not ((eval_eq_ok_iff operand n found).mp hoperand) htruth
      · intro h
        cases h with
        | not hoperand htruth =>
          exact ⟨_, rfl, bind_eq_ok_iff.mpr ⟨_, (eval_eq_ok_iff operand _ _).mpr hoperand,
            bind_eq_ok_iff.mpr ⟨_, htruth, rfl⟩⟩⟩
    | usub =>
      constructor
      · rintro ⟨n, rfl, h⟩
        obtain ⟨found, hoperand, hneg⟩ := bind_eq_ok_iff.mp h
        exact .usub ((eval_eq_ok_iff operand n found).mp hoperand) hneg
      · intro h
        cases h with
        | usub hoperand hneg =>
          exact ⟨_, rfl, bind_eq_ok_iff.mpr ⟨_, (eval_eq_ok_iff operand _ _).mpr hoperand, hneg⟩⟩
    | uadd | invert =>
      constructor
      · rintro ⟨n, -, ⟨⟩⟩
      · rintro ⟨⟩
  | .compare left comparisons, n + 1 =>
    rw [eval, frame_eq_ok_iff]
    constructor
    · rintro ⟨n, rfl, h⟩
      obtain ⟨found, hleft, h⟩ := bind_eq_ok_iff.mp h
      exact .compare ((eval_eq_ok_iff left n found).mp hleft)
        ((evalCompare_eq_ok_iff found comparisons n value).mp h)
    · intro h
      cases h with
      | compare hleft hcomparisons =>
        exact ⟨_, rfl, bind_eq_ok_iff.mpr ⟨_, (eval_eq_ok_iff left _ _).mpr hleft,
          (evalCompare_eq_ok_iff _ comparisons _ value).mpr hcomparisons⟩⟩
  | .call func args keywords, n + 1 =>
    rw [eval, frame_eq_ok_iff]
    constructor
    · rintro ⟨n, rfl, h⟩
      cases keywords with
      | true => cases h
      | false =>
        rw [if_neg Bool.false_ne_true] at h
        cases func with
        | name id =>
          dsimp only at h
          split at h
          · cases h
          next func hfunc =>
            obtain ⟨values, hargs, hresult⟩ := bind_eq_ok_iff.mp h
            exact .call hfunc ((evalAll_eq_ok_iff args n values).mp hargs)
              (callFunction_eq_ok_iff.mp hresult)
        | _ => cases h
    · intro h
      cases h with
      | call hfunc hargs hresult =>
        refine ⟨_, rfl, ?_⟩
        rw [if_neg Bool.false_ne_true]
        dsimp only
        rw [hfunc]
        exact bind_eq_ok_iff.mpr ⟨_, (evalAll_eq_ok_iff args _ _).mpr hargs,
          callFunction_eq_ok_iff.mpr hresult⟩

theorem evalAll_eq_ok_iff (elts : List (Expr V)) (n : ℕ) (values : List V) :
    py.evalAll context elts n = .ok values ↔ py.EvaluatesAll context n elts values := by
  match elts with
  | [] =>
    rw [evalAll]
    constructor
    · rintro ⟨⟩
      exact .nil
    · rintro ⟨⟩
      rfl
  | elt :: elts =>
    rw [evalAll, bind_eq_ok_iff]
    constructor
    · rintro ⟨value, helt, h⟩
      obtain ⟨rest, helts, ⟨⟩⟩ := bind_eq_ok_iff.mp h
      exact .cons ((eval_eq_ok_iff elt n value).mp helt) ((evalAll_eq_ok_iff elts n rest).mp helts)
    · intro h
      cases h with
      | cons helt helts =>
        exact ⟨_, (eval_eq_ok_iff elt n _).mpr helt,
          bind_eq_ok_iff.mpr ⟨_, (evalAll_eq_ok_iff elts n _).mpr helts, rfl⟩⟩

theorem evalBoolop_eq_ok_iff (op : BoolOp) (first : V) (values : List (Expr V)) (n : ℕ) (result : V) :
    py.evalBoolop context op first values n = .ok result ↔
      py.EvaluatesBoolop context n op first values result := by
  match values with
  | [] =>
    rw [evalBoolop]
    constructor
    · rintro ⟨⟩
      exact .nil
    · rintro ⟨⟩
      rfl
  | value :: values =>
    rw [evalBoolop, bind_eq_ok_iff]
    constructor
    · rintro ⟨second, hvalue, h⟩
      obtain ⟨holds, htruth, h⟩ := bind_eq_ok_iff.mp h
      have hvalue := (eval_eq_ok_iff value n second).mp hvalue
      split at h
      next hstops =>
        cases h
        rw [hstops] at htruth
        exact .stop hvalue htruth
      next hstops =>
        rw [Bool.eq_not.mpr hstops] at htruth
        exact .next hvalue htruth ((evalBoolop_eq_ok_iff op second values n result).mp h)
    · intro h
      cases h with
      | stop hvalue htruth =>
        refine ⟨_, (eval_eq_ok_iff value n _).mpr hvalue, bind_eq_ok_iff.mpr ⟨_, htruth, ?_⟩⟩
        rw [if_pos rfl]
        rfl
      | next hvalue htruth hvalues =>
        refine ⟨_, (eval_eq_ok_iff value n _).mpr hvalue, bind_eq_ok_iff.mpr ⟨_, htruth, ?_⟩⟩
        rw [if_neg (by simp)]
        exact (evalBoolop_eq_ok_iff op _ values n result).mpr hvalues

theorem evalCompare_eq_ok_iff (left : V) (comparisons : List (CompareOp × Expr V)) (n : ℕ)
    (result : V) :
    py.evalCompare context left comparisons n = .ok result ↔
      py.EvaluatesCompare context n left comparisons result := by
  match comparisons with
  | [] =>
    rw [evalCompare]
    constructor
    · rintro ⟨⟩
      exact .nil
    · rintro ⟨⟩
      rfl
  | (op, comparator) :: comparisons =>
    rw [evalCompare]
    constructor
    · intro h
      split at h
      · cases h
      next compare hop =>
        obtain ⟨right, hright, h⟩ := bind_eq_ok_iff.mp h
        obtain ⟨holds, honce, h⟩ := bind_eq_ok_iff.mp h
        have hright := (eval_eq_ok_iff comparator n right).mp hright
        have hbare := compareOnce_eq_ok_iff.mp honce
        cases holds with
        | true =>
          exact .holds hop hright hbare ((evalCompare_eq_ok_iff right comparisons n result).mp h)
        | false =>
          cases h
          exact .fails hop hright hbare
    · intro h
      cases h with
      | fails hop hright hfails =>
        rw [hop]
        exact bind_eq_ok_iff.mpr ⟨_, (eval_eq_ok_iff comparator n _).mpr hright,
          bind_eq_ok_iff.mpr ⟨_, compareOnce_eq_ok_iff.mpr hfails, rfl⟩⟩
      | holds hop hright hholds hcomparisons =>
        rw [hop]
        exact bind_eq_ok_iff.mpr ⟨_, (eval_eq_ok_iff comparator n _).mpr hright,
          bind_eq_ok_iff.mpr ⟨_, compareOnce_eq_ok_iff.mpr hholds,
            (evalCompare_eq_ok_iff _ comparisons n result).mpr hcomparisons⟩⟩

end

/-- **An expression has the value that is returned for it.** -/
theorem evaluateExpression_eq_ok_iff {expression : String} {n : ℕ} {value : V} :
    py.evaluateExpression context expression n = .ok value ↔
      py.EvaluatesExpression context expression n value := by
  cases n with
  | zero => exact iff_of_false nofun id
  | succ n =>
    rw [evaluateExpression, frame, EvaluatesExpression, Framed]
    cases py.parse expression with
    | ok tree => simpa using eval_eq_ok_iff tree n value
    | error error => cases error <;> simp

end Values

/-! ## What evaluation lets through -/

section Guards

variable (py : Language V) (context : Dict String V)

mutual

/-- No operation that the evaluation of a tree reaches raises an error that is let through: a minus gets
an object that can be negated, the truth of a value can be told where it is needed, a comparison raises
nothing but what its handler catches, and the stack is deep enough. -/
def Guarded : Expr V → ℕ → Prop
  | _, 0 => False
  | .constant _, _ + 1 | .name _, _ + 1 | .other _, _ + 1 => True
  | .list elts, n + 1 => GuardedAll elts n
  | .boolOp op values, n + 1 => Framed (fun n => GuardedBoolop op values n) n
  | .unaryOp op operand, n + 1 =>
    Framed (fun n =>
      match op with
      | .not => Guarded operand n ∧
          ∀ value, py.Evaluates context n operand value → Settled (py.truth value)
      | .usub => Guarded operand n ∧
          ∀ value, py.Evaluates context n operand value → Settled (py.neg value)
      | _ => True) n
  | .compare left comparisons, n + 1 =>
    Framed (fun n => Guarded left n ∧
      ∀ value, py.Evaluates context n left value → GuardedCompare value comparisons n) n
  | .call func args keywords, n + 1 =>
    Framed (fun n => keywords = false → ∀ id, func = .name id → (py.function? id).isSome →
      GuardedAll args n) n

/-- The trees that are evaluated one after the other are guarded. -/
def GuardedAll : List (Expr V) → ℕ → Prop
  | [], _ => True
  | elt :: elts, n =>
    Guarded elt n ∧ ((∃ value, py.Evaluates context n elt value) → GuardedAll elts n)

/-- The values of an `and` or an `or` are guarded, up to the one that stops it. -/
def GuardedBoolop (op : BoolOp) : List (Expr V) → ℕ → Prop
  | [], _ => True
  | value :: values, n =>
    Guarded value n ∧ ∀ result, py.Evaluates context n value result →
      Settled (py.truth result) ∧ (py.truth result = .ok (!op.stops) → GuardedBoolop op values n)

/-- The comparisons are guarded, up to the one that fails. -/
def GuardedCompare (left : V) : List (CompareOp × Expr V) → ℕ → Prop
  | [], _ => True
  | (op, comparator) :: comparisons, n =>
    ∀ compare, py.compareOp? op = some compare →
      Guarded comparator n ∧ ∀ right, py.Evaluates context n comparator right →
        RaisesOnly CaseError.IsCaught ((compare left right n).bind py.truth) ∧
          ((compare left right n).bind py.truth = .ok true → GuardedCompare right comparisons n)

end

/-- The expression parses, or has a syntax error, and its tree is guarded. -/
def GuardedExpression (expression : String) : ℕ → Prop :=
  Framed fun n =>
    match py.parse expression with
    | .ok tree => py.Guarded context tree n
    | .error (.syntaxError _) => True
    | .error error => error.IsExpression

end Guards

section Settling

variable {py : Language V} {context : Dict String V}

theorem settled_callFunction (func : ℕ → List V → Except CaseError V) (values : List V) (n : ℕ) :
    Settled (callFunction func values n) := by
  unfold callFunction
  split
  · exact settled_ok
  · exact settled_expressionError
  · exact settled_expressionError

/-- A comparison is settled exactly if its handler catches what it raises. -/
theorem settled_compareOnce_iff {op : V → V → ℕ → Except CaseError V} {left right : V} {n : ℕ} :
    Settled (py.compareOnce op left right n) ↔
      RaisesOnly CaseError.IsCaught ((op left right n).bind py.truth) := by
  unfold compareOnce
  cases (op left right n).bind py.truth with
  | ok holds => exact iff_of_true settled_ok raisesOnly_ok
  | error error => cases error <;> simp [CaseError.IsExpression, CaseError.IsCaught]

mutual

/-- **A tree gives a value or `ExpressionError`** exactly if it is guarded. -/
theorem settled_eval_iff (tree : Expr V) (n : ℕ) :
    Settled (py.eval context tree n) ↔ py.Guarded context tree n := by
  -- By induction on the tree, along the calls of the evaluator; the frames go down with it.
  match tree, n with
  | _, 0 => simp [eval, Guarded, CaseError.IsExpression]
  | .constant value, n + 1 => simp [eval, Guarded]
  | .name id, n + 1 =>
    rw [eval, Guarded, iff_true]
    split
    · exact settled_ok
    · exact settled_expressionError
  | .other kind, n + 1 =>
    rw [eval, Guarded, iff_true]
    exact settled_expressionError
  | .list elts, n + 1 =>
    rw [eval, Guarded, settled_bind_iff, ← settled_evalAll_iff elts n]
    exact and_iff_left fun _ _ => settled_pure
  | .boolOp op values, n + 1 =>
    rw [eval, Guarded, settled_frame_iff]
    exact framed_congr fun n => settled_evalBoolop_iff op (py.start op) values n
  | .unaryOp op operand, n + 1 =>
    rw [eval, Guarded, settled_frame_iff]
    refine framed_congr fun n => ?_
    cases op with
    | not =>
      -- The truth of the operand is asked for outside any `try`.
      rw [settled_bind_iff, settled_eval_iff operand n]
      simp only [eval_eq_ok_iff]
      refine and_congr_right fun _ => forall₂_congr fun value _ => ?_
      rw [settled_bind_iff]
      exact and_iff_left fun _ _ => settled_pure
    | usub =>
      rw [settled_bind_iff, settled_eval_iff operand n]
      simp only [eval_eq_ok_iff]
    | uadd => exact iff_true_intro (settled_expressionError)
    | invert => exact iff_true_intro (settled_expressionError)
  | .compare left comparisons, n + 1 =>
    rw [eval, Guarded, settled_frame_iff]
    refine framed_congr fun n => ?_
    rw [settled_bind_iff, settled_eval_iff left n]
    simp only [eval_eq_ok_iff]
    exact and_congr_right fun _ => forall₂_congr fun value _ =>
      settled_evalCompare_iff value comparisons n
  | .call func args keywords, n + 1 =>
    rw [eval, Guarded, settled_frame_iff]
    refine framed_congr fun n => ?_
    cases keywords with
    | true => simp [CaseError.IsExpression]
    | false =>
      rw [if_neg Bool.false_ne_true]
      cases func with
      | name id =>
        simp only [Expr.name.injEq, forall_const, forall_eq']
        cases hfunc : py.function? id with
        | none => simp [CaseError.IsExpression]
        | some func =>
          simp only [Option.isSome_some, forall_const]
          -- Only the arguments matter: what the function raises is an `ExpressionError`.
          rw [settled_bind_iff, settled_evalAll_iff args n]
          exact and_iff_left fun values _ => settled_callFunction func values n
      | _ => simp [CaseError.IsExpression]

theorem settled_evalAll_iff (elts : List (Expr V)) (n : ℕ) :
    Settled (py.evalAll context elts n) ↔ py.GuardedAll context elts n := by
  match elts with
  | [] => simp [evalAll, GuardedAll]
  | elt :: elts =>
    rw [evalAll, GuardedAll, settled_bind_iff, settled_eval_iff elt n]
    refine and_congr_right fun _ => ?_
    rw [forall_exists_index]
    simp only [eval_eq_ok_iff]
    refine forall₂_congr fun value _ => ?_
    rw [settled_bind_iff, settled_evalAll_iff elts n]
    exact and_iff_left fun _ _ => settled_pure

theorem settled_evalBoolop_iff (op : BoolOp) (result : V) (values : List (Expr V)) (n : ℕ) :
    Settled (py.evalBoolop context op result values n) ↔
      py.GuardedBoolop context op values n := by
  match values with
  | [] => simp [evalBoolop, GuardedBoolop]
  | value :: values =>
    rw [evalBoolop, GuardedBoolop, settled_bind_iff, settled_eval_iff value n]
    simp only [eval_eq_ok_iff]
    refine and_congr_right fun _ => forall₂_congr fun result _ => ?_
    rw [settled_bind_iff]
    refine and_congr_right fun _ => ?_
    rw [← settled_evalBoolop_iff op result values n]
    constructor
    · intro h hholds
      simpa using h _ hholds
    · intro h holds hholds
      split
      next => exact settled_pure
      next hstops =>
        -- The loop goes on only after a value of the other truth.
        refine h ?_
        rw [hholds, Bool.eq_not.mpr hstops]

theorem settled_evalCompare_iff (left : V) (comparisons : List (CompareOp × Expr V)) (n : ℕ) :
    Settled (py.evalCompare context left comparisons n) ↔
      py.GuardedCompare context left comparisons n := by
  match comparisons with
  | [] => simp [evalCompare, GuardedCompare]
  | (op, comparator) :: comparisons =>
    rw [evalCompare, GuardedCompare]
    cases hop : py.compareOp? op with
    | none => simp [CaseError.IsExpression]
    | some compare =>
      simp only [Option.some.injEq, forall_eq']
      rw [settled_bind_iff, settled_eval_iff comparator n]
      simp only [eval_eq_ok_iff]
      refine and_congr_right fun _ => forall₂_congr fun right _ => ?_
      rw [settled_bind_iff, settled_compareOnce_iff]
      simp only [compareOnce_eq_ok_iff]
      refine and_congr_right fun _ => ?_
      rw [← settled_evalCompare_iff right comparisons n]
      constructor
      · intro h hholds
        exact h true hholds
      · intro h holds hholds
        cases holds with
        | true => exact h hholds
        | false => exact settled_pure

end

/-- **An expression gives a value or `ExpressionError`** exactly if it is guarded. -/
theorem settled_evaluateExpression_iff {expression : String} {n : ℕ} :
    Settled (py.evaluateExpression context expression n) ↔
      py.GuardedExpression context expression n := by
  rw [evaluateExpression, GuardedExpression, settled_frame_iff]
  refine framed_congr fun n => ?_
  cases py.parse expression with
  | ok tree => exact settled_eval_iff tree n
  | error error =>
    cases error with
    | syntaxError text => exact iff_true_intro settled_expressionError
    -- Whatever else the parser raises comes out as it is.
    | _ => exact settled_error_iff

end Settling

end Language

end SecOpent
