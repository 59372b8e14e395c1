import MiniFun.Env
import MiniFun.Evaluation.Operation
import MiniFun.Expr.ConstructorForm

/-! # The rules of evaluation

What an expression evaluates to, as a relation between an environment, a store, the expression, its
outcome and the store left behind. The outcome is a value, or an error with its class and wording.
The rules know no limit on nesting and no order of work beyond the one that the stores spell out:
each premise starts from the store that the premise before it has left.

An error in any part becomes the outcome of the whole, and the parts behind it are not evaluated.
Looking up a name, operating on two values and calling a function of the host have relations of
their own, which leave the store alone.
-/

namespace MiniFun

inductive ErrorClass where
  | general
  | unboundVariable
  | wrongType
  | emptyList
  | internal
  | malformed
  /-- A value with which the interpreter cannot work; no error of the language. -/
  | badValue
deriving DecidableEq, Repr, Inhabited

inductive EvaluationOutcome where
  | value (result : Value)
  | error (kind : ErrorClass) (message : String)
deriving DecidableEq, Repr, Inhabited

/-- The value of the first binding of a name, or the error that there is none. -/
inductive Finds (store : Store) (name : String) : Env → EvaluationOutcome → Prop
  | missing : Finds store name .empty (.error .unboundVariable ("unbound variable: " ++ name))
  | bound (value : Value) (rest : Env) : Finds store name (.bind name value rest) (.value value)
  | filled {cell : Nat} {value : Value} (rest : Env) (known : store.read? cell = some value) :
      Finds store name (.recursive name cell rest) (.value value)
  /-- The binding hides those behind it even while it has no value. -/
  | unfilled {cell : Nat} (rest : Env) (unknown : store.read? cell = none) :
      Finds store name (.recursive name cell rest)
        (.error .unboundVariable ("unbound variable: " ++ name ++ " (used in its own definition)"))
  | behindBound {other : String} {value : Value} {rest : Env} {outcome : EvaluationOutcome}
      (differs : other ≠ name) :
      Finds store name rest outcome → Finds store name (.bind other value rest) outcome
  | behindRecursive {other : String} {cell : Nat} {rest : Env} {outcome : EvaluationOutcome}
      (differs : other ≠ name) :
      Finds store name rest outcome → Finds store name (.recursive other cell rest) outcome

/-- Whether two values are equal, for those that can be compared. -/
inductive Compares : Value → Value → Bool → Prop
  | nils : Compares .nil .nil true
  | nilFirst {right : Value} (other : right ≠ .nil) : Compares .nil right false
  | nilSecond {left : Value} (other : left ≠ .nil) : Compares left .nil false
  | ints (a b : Int) : Compares (.int a) (.int b) (a = b)
  | bools (a b : Bool) : Compares (.bool a) (.bool b) (a = b)

/-- The operator table. -/
inductive Operates : Operator → Value → Value → EvaluationOutcome → Prop
  | cons (left right : Value) : Operates .cons left right (.value (.pair left right))
  | plus (a b : Int) : Operates .plus (.int a) (.int b) (.value (.int (a + b)))
  | minus (a b : Int) : Operates .minus (.int a) (.int b) (.value (.int (a - b)))
  | times (a b : Int) : Operates .times (.int a) (.int b) (.value (.int (a * b)))
  | less (a b : Int) : Operates .less (.int a) (.int b) (.value (.bool (a < b)))
  | lessEqual (a b : Int) : Operates .lessEqual (.int a) (.int b) (.value (.bool (a ≤ b)))
  | notIntegers {op : Operator} {left right : Value}
      (arithmetic : op ∈ [.plus, .minus, .times, .less, .lessEqual])
      (unfit : ¬ (left.isInt ∧ right.isInt)) :
      Operates op left right (.error .wrongType "type error: expected integers")
  | equal {left right : Value} {answer : Bool} (compared : Compares left right answer) :
      Operates .equal left right (.value (.bool answer))
  | notEqual {left right : Value} {answer : Bool} (compared : Compares left right answer) :
      Operates .notEqual left right (.value (.bool !answer))
  | equalIncomparable {left right : Value} (unfit : ∀ answer, ¬ Compares left right answer) :
      Operates .equal left right (.error .wrongType "type error: incompatible types for Eq")
  | notEqualIncomparable {left right : Value} (unfit : ∀ answer, ¬ Compares left right answer) :
      Operates .notEqual left right (.error .wrongType "type error: incompatible types for Ne")
  | both (a b : Bool) : Operates .both (.bool a) (.bool b) (.value (.bool (a && b)))
  | either (a b : Bool) : Operates .either (.bool a) (.bool b) (.value (.bool (a || b)))
  | notBooleans {op : Operator} {left right : Value} (logical : op ∈ [.both, .either])
      (unfit : ¬ (left.isBool ∧ right.isBool)) :
      Operates op left right (.error .wrongType "type error: expected booleans")

inductive Responds : HostFunction → Value → EvaluationOutcome → Prop
  | head (first rest : Value) : Responds .head (.pair first rest) (.value first)
  | headOfNil : Responds .head .nil (.error .emptyList "head called on empty list")
  | headOfNonList {argument : Value} (notNil : argument ≠ .nil)
      (notPair : ∀ first rest, argument ≠ .pair first rest) :
      Responds .head argument (.error .wrongType "head called on non-list")
  | tail (first rest : Value) : Responds .tail (.pair first rest) (.value rest)
  | tailOfNil : Responds .tail .nil (.value .nil)
  | tailOfNonList {argument : Value} (notNil : argument ≠ .nil)
      (notPair : ∀ first rest, argument ≠ .pair first rest) :
      Responds .tail argument (.error .wrongType "tail called on non-list")
  | identity (argument : Value) : Responds .identity argument (.value argument)
  | failing (argument : Value) : Responds .failing argument (.error .wrongType "host failure")

/-- The outcome of an expression in an environment, from one store to the next. -/
inductive Evaluates : Env → Store → Expr → EvaluationOutcome → Store → Prop
  | int {env : Env} {store : Store} (value : Int) :
      Evaluates env store (.int value) (.value (.int value)) store
  | bool {env : Env} {store : Store} (value : Bool) :
      Evaluates env store (.bool value) (.value (.bool value)) store
  | nil {env : Env} {store : Store} : Evaluates env store .nil (.value .nil) store
  | var {env : Env} {store : Store} {name : String} {outcome : EvaluationOutcome}
      (found : Finds store name env outcome) : Evaluates env store (.var name) outcome store
  | lambda {env : Env} {store : Store} (param : String) (body : Expr) :
      Evaluates env store (.lambda param body) (.value (.closure env param body)) store
  | binary {env : Env} {source middle target : Store} {op : Operator} {left right : Expr}
      {leftValue rightValue : Value} {outcome : EvaluationOutcome} :
      Evaluates env source left (.value leftValue) middle →
      Evaluates env middle right (.value rightValue) target →
      Operates op leftValue rightValue outcome →
      Evaluates env source (.binary op left right) outcome target
  | binaryLeft {env : Env} {source target : Store} {op : Operator} {left right : Expr}
      {kind : ErrorClass} {message : String} :
      Evaluates env source left (.error kind message) target →
      Evaluates env source (.binary op left right) (.error kind message) target
  | binaryRight {env : Env} {source middle target : Store} {op : Operator} {left right : Expr}
      {leftValue : Value} {kind : ErrorClass} {message : String} :
      Evaluates env source left (.value leftValue) middle →
      Evaluates env middle right (.error kind message) target →
      Evaluates env source (.binary op left right) (.error kind message) target
  /-- An operator outside of the language is refused once both operands are there. -/
  | unknown {env : Env} {source middle target : Store} {symbol : String} {left right : Expr}
      {leftValue rightValue : Value} :
      Evaluates env source left (.value leftValue) middle →
      Evaluates env middle right (.value rightValue) target →
      Evaluates env source (.unknown symbol left right)
        (.error .internal ("internal error: unknown operator " ++ Text.quoted symbol)) target
  | unknownLeft {env : Env} {source target : Store} {symbol : String} {left right : Expr}
      {kind : ErrorClass} {message : String} :
      Evaluates env source left (.error kind message) target →
      Evaluates env source (.unknown symbol left right) (.error kind message) target
  | unknownRight {env : Env} {source middle target : Store} {symbol : String} {left right : Expr}
      {leftValue : Value} {kind : ErrorClass} {message : String} :
      Evaluates env source left (.value leftValue) middle →
      Evaluates env middle right (.error kind message) target →
      Evaluates env source (.unknown symbol left right) (.error kind message) target
  | condTrue {env : Env} {source middle target : Store} {test consequent alternative : Expr}
      {outcome : EvaluationOutcome} :
      Evaluates env source test (.value (.bool true)) middle →
      Evaluates env middle consequent outcome target →
      Evaluates env source (.cond test consequent alternative) outcome target
  | condFalse {env : Env} {source middle target : Store} {test consequent alternative : Expr}
      {outcome : EvaluationOutcome} :
      Evaluates env source test (.value (.bool false)) middle →
      Evaluates env middle alternative outcome target →
      Evaluates env source (.cond test consequent alternative) outcome target
  | condNotBoolean {env : Env} {source target : Store} {test consequent alternative : Expr}
      {testValue : Value} :
      Evaluates env source test (.value testValue) target → testValue.isBool = false →
      Evaluates env source (.cond test consequent alternative)
        (.error .wrongType "type error: expected bool") target
  | condTest {env : Env} {source target : Store} {test consequent alternative : Expr}
      {kind : ErrorClass} {message : String} :
      Evaluates env source test (.error kind message) target →
      Evaluates env source (.cond test consequent alternative) (.error kind message) target
  /-- The bound expression sees the new binding without a value, the body with it. -/
  | letIn {env : Env} {source middle target : Store} {name : String} {bound body : Expr}
      {boundValue : Value} {outcome : EvaluationOutcome} :
      Evaluates (.recursive name source.size env) source.reserve bound (.value boundValue) middle →
      Evaluates (.recursive name source.size env) (middle.fill source.size boundValue) body outcome
        target →
      Evaluates env source (.letIn name bound body) outcome target
  | letBound {env : Env} {source target : Store} {name : String} {bound body : Expr}
      {kind : ErrorClass} {message : String} :
      Evaluates (.recursive name source.size env) source.reserve bound (.error kind message)
        target →
      Evaluates env source (.letIn name bound body) (.error kind message) target
  /-- The body of a closure sees the environment in which the closure was made. -/
  | applyClosure {env captured : Env} {source middle between target : Store}
      {function argument body : Expr} {param : String} {argumentValue : Value}
      {outcome : EvaluationOutcome} :
      Evaluates env source function (.value (.closure captured param body)) middle →
      Evaluates env middle argument (.value argumentValue) between →
      Evaluates (.bind param argumentValue captured) between body outcome target →
      Evaluates env source (.apply function argument) outcome target
  | applyPrimitive {env : Env} {source middle target : Store} {function argument : Expr}
      {primitive : Primitive} {argumentValue : Value} {outcome : EvaluationOutcome} :
      Evaluates env source function (.value (.primitive primitive)) middle →
      Evaluates env middle argument (.value argumentValue) target →
      Responds primitive.function argumentValue outcome →
      Evaluates env source (.apply function argument) outcome target
  /-- The argument is not evaluated if nothing takes it. -/
  | applyNonFunction {env : Env} {source target : Store} {function argument : Expr}
      {functionValue : Value} :
      Evaluates env source function (.value functionValue) target →
      functionValue.isFunction = false →
      Evaluates env source (.apply function argument)
        (.error .wrongType "type error: expected function") target
  | applyFunction {env : Env} {source target : Store} {function argument : Expr}
      {kind : ErrorClass} {message : String} :
      Evaluates env source function (.error kind message) target →
      Evaluates env source (.apply function argument) (.error kind message) target
  | applyArgument {env : Env} {source middle target : Store} {function argument : Expr}
      {functionValue : Value} {kind : ErrorClass} {message : String} :
      Evaluates env source function (.value functionValue) middle →
      functionValue.isFunction = true →
      Evaluates env middle argument (.error kind message) target →
      Evaluates env source (.apply function argument) (.error kind message) target
  | embedded {env : Env} {store : Store} {value : Value} {node : String}
      (shown : value.form? = some node) :
      Evaluates env store (.embedded value)
        (.error .internal ("internal error: cannot evaluate " ++ node)) store
  /-- The refusal shows the node, and fails in another way if it cannot be shown. -/
  | embeddedUnwritable {env : Env} {store : Store} {value : Value}
      (unshown : value.form? = none) :
      Evaluates env store (.embedded value)
        (.error .badValue
          ("Exceeds the limit (4300 digits) for integer string conversion" ++
            "; use sys.set_int_max_str_digits() to increase the limit")) store

end MiniFun
