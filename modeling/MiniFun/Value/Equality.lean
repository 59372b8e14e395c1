import MiniFun.Expr

/-! # Equality for host programs

Host programs compare values more loosely than the language does: a truth value is equal to the
integer one or zero that stands for it. Pairs and error results are compared part by part, a
primitive is equal to itself, and no two closures are equal. Expressions are compared node by node,
and loosely only in the values embedded in them.
-/

namespace MiniFun

/-- The integer that stands for a truth value. -/
def boolNumber (value : Bool) : Int :=
  if value then 1 else 0

/-- Equality of values as a host program sees it. -/
def Value.looselyEq : Value → Value → Bool
  | .int a, .int b => a == b
  | .int a, .bool b => a == boolNumber b
  | .bool a, .int b => boolNumber a == b
  | .bool a, .bool b => a == b
  | .nil, .nil => true
  | .pair head tail, .pair head' tail' => head.looselyEq head' && tail.looselyEq tail'
  | .primitive function, .primitive function' => function == function'
  | .failed message, .failed message' => message == message'
  | _, _ => false

/-- Equality of expressions node by node. -/
def Expr.looselyEq : Expr → Expr → Bool
  | .int a, .int b => a == b
  | .bool a, .bool b => a == b
  | .var name, .var name' => name == name'
  | .nil, .nil => true
  | .binary op left right, .binary op' left' right' =>
    op == op' && left.looselyEq left' && right.looselyEq right'
  | .unknown symbol left right, .unknown symbol' left' right' =>
    symbol == symbol' && left.looselyEq left' && right.looselyEq right'
  | .cond test consequent alternative, .cond test' consequent' alternative' =>
    test.looselyEq test' && consequent.looselyEq consequent' &&
      alternative.looselyEq alternative'
  | .letIn name bound body, .letIn name' bound' body' =>
    name == name' && bound.looselyEq bound' && body.looselyEq body'
  | .lambda param body, .lambda param' body' => param == param' && body.looselyEq body'
  | .apply function argument, .apply function' argument' =>
    function.looselyEq function' && argument.looselyEq argument'
  | .embedded value, .embedded value' => value.looselyEq value'
  | _, _ => false

end MiniFun
