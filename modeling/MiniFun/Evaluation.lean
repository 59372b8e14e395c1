import MiniFun.Env
import MiniFun.Evaluation.Operation
import MiniFun.Expr.ConstructorForm

/-! # Evaluation

Evaluation is strict and goes from left to right; the first error ends it. Both operands of every
operator are evaluated before they are looked at, those of `&&` and `||` included. A conditional
evaluates one of its branches. The argument of an application is evaluated only if there is a
function to take it. A definition is in force in its own bound expression, where it has no value
yet; closures made there find the value later.

The limit is the number of evaluations that may be nested in one another.
-/

namespace MiniFun

/-- Applies a function to an evaluated argument, given how its body is evaluated. The body sees
the environment in which the function was made. -/
def Value.applyWith (evaluate : Env → Expr → Computation Value) (function argument : Value) :
    Computation Value :=
  match function with
  | .closure env param body => evaluate (env.extend param argument) body
  | .primitive builtin => .ofStep (builtin.apply argument)
  | _ => throw (.error (.mistyped .notFunction))

/-- Refuses a value in the place of an expression. -/
def Value.refuse (value : Value) : Computation Value := do
  let node ← .ofText value.form?
  throw (.error (.internal (.unevaluable node)))

def evaluate : Nat → Env → Expr → Computation Value
  | 0, _, _ => throw .tooDeep
  | limit + 1, env, expr => do
    match expr with
    | .int value => return .int value
    | .bool value => return .bool value
    | .nil => return .nil
    | .var name => env.lookup name
    | .lambda param body => return .closure env param body
    | .binary op left right =>
      let leftValue ← evaluate limit env left
      let rightValue ← evaluate limit env right
      .ofStep (op.apply leftValue rightValue)
    | .unknown symbol left right =>
      let _ ← evaluate limit env left
      let _ ← evaluate limit env right
      throw (.error (.internal (.unknownOperator symbol)))
    | .cond test consequent alternative =>
      match ← evaluate limit env test with
      | .bool true => evaluate limit env consequent
      | .bool false => evaluate limit env alternative
      | _ => throw (.error (.mistyped .notBoolean))
    | .letIn name bound body =>
      let inner ← env.define name fun inner => evaluate limit inner bound
      evaluate limit inner body
    | .apply function argument =>
      let functionValue ← evaluate limit env function
      if functionValue.isFunction then
        let argumentValue ← evaluate limit env argument
        functionValue.applyWith (evaluate limit) argumentValue
      else
        throw (.error (.mistyped .notFunction))
    | .embedded value => value.refuse

/-- The nesting at which this interpreter gives up. -/
def nestingLimit : Nat := 5000

def Value.applyTo (function argument : Value) : Computation Value :=
  function.applyWith (evaluate nestingLimit) argument

end MiniFun
