import MiniFun.Evaluation
import MiniFun.Parser

/-! # The interpreter

An interpreter evaluates programs in a fixed environment: the built-in functions, and in front of
them the bindings that the host program gave. Evaluating raises errors; running turns them into
values. Nothing that a program does changes the environment for the next one.
-/

namespace MiniFun

def Env.initial : Env :=
  ofBindings [("head", .primitive .head), ("tail", .primitive .tail)]

/-- How running a program ended. -/
inductive Outcome where
  | value (result : Value)
  /-- The text is not a program. -/
  | rejected (cause : Error)
  /-- The program has no value. -/
  | failed (cause : Error)
deriving DecidableEq, Repr, Inhabited

namespace Outcome

def toValue : Outcome → Value
  | value result => result
  | rejected cause | failed cause => .failed cause.message

end Outcome

/-- The bindings of the host program in the order in which they were made. -/
structure Interpreter where
  bindings : List (String × Value)
deriving DecidableEq, Repr, Inhabited

namespace Interpreter

def standard : Interpreter := ⟨[]⟩

/-- The environment in which programs are evaluated. The last binding is foremost. -/
def env (interpreter : Interpreter) : Env :=
  interpreter.bindings.foldl (fun env binding => env.extend binding.1 binding.2) .initial

/-- Bindings with one more name, or with a new value for a name that keeps its place. -/
def bindIn (name : String) (value : Value) : List (String × Value) → List (String × Value)
  | [] => [(name, value)]
  | binding :: rest =>
    if binding.1 = name then (name, value) :: rest else binding :: bindIn name value rest

/-- The interpreter with a binding of the host program added or renewed. -/
def bind (interpreter : Interpreter) (name : String) (value : Value) : Interpreter :=
  ⟨bindIn name value interpreter.bindings⟩

def evaluate (interpreter : Interpreter) (expr : Expr) : Computation Value :=
  MiniFun.evaluate nestingLimit interpreter.env expr

def evaluateText (interpreter : Interpreter) (source : String) : Computation Value := do
  interpreter.evaluate (← .ofExcept (parse source))

def attempt (interpreter : Interpreter) (expr : Expr) : Computation Outcome :=
  Computation.recover (Outcome.value <$> interpreter.evaluate expr)
    fun cause => return .failed cause

def attemptText (interpreter : Interpreter) (source : String) : Computation Outcome :=
  match parse source with
  | .ok expr => interpreter.attempt expr
  | .error (.error cause) => return .rejected cause
  | .error failure => throw failure

/-- The value of an expression, an error being a value as well. -/
def run (interpreter : Interpreter) (expr : Expr) : Computation Value :=
  Outcome.toValue <$> interpreter.attempt expr

/-- The value of a program, an error being a value as well. -/
def runText (interpreter : Interpreter) (source : String) : Computation Value :=
  Outcome.toValue <$> interpreter.attemptText source

end Interpreter

end MiniFun
