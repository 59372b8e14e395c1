import MiniFun.Operator

/-! # Expressions, values and environments

The three kinds of tree that evaluation works on. A closure keeps the environment in which it was
made, an environment keeps values, and a host program may put a value where an expression belongs,
so the three are defined together.

Programs are read as expressions of the first nine forms. The last two forms only come from a host
program: they print like the others, and evaluation refuses them.
-/

namespace MiniFun

/-- The functions of the host that values can stand for. The language has the first two built in.
The others are functions that a host program may bring along. -/
inductive HostFunction where
  | head
  | tail
  /-- Gives back its argument. -/
  | identity
  /-- Refuses every argument. -/
  | failing
deriving DecidableEq, Repr, Inhabited

/-- A function of one argument that is not written in the language. -/
structure Primitive where
  function : HostFunction
  /-- How the host writes the function. It adds where it keeps the function, which differs from run
  to run. -/
  functionText : String
deriving DecidableEq, Repr, Inhabited

namespace Primitive

-- The places are those of one run. A primitive can have any other text.

def head : Primitive := ⟨.head, "<function head at 0x7f0000000000>"⟩

def tail : Primitive := ⟨.tail, "<function tail at 0x7f0000000090>"⟩

def identity : Primitive := ⟨.identity, "<function identity at 0x7f0000000120>"⟩

def failing : Primitive := ⟨.failing, "<function failing at 0x7f00000001b0>"⟩

end Primitive

mutual

inductive Expr where
  | int (value : Int)
  | bool (value : Bool)
  | var (name : String)
  | nil
  | binary (op : Operator) (left right : Expr)
  | cond (test consequent alternative : Expr)
  | letIn (name : String) (bound body : Expr)
  | lambda (param : String) (body : Expr)
  | apply (function argument : Expr)
  /-- An operator that the language does not have, by its symbol. -/
  | unknown (symbol : String) (left right : Expr)
  /-- A value in the place of an expression. -/
  | embedded (value : Value)

inductive Value where
  | int (value : Int)
  | bool (value : Bool)
  | nil
  | pair (head tail : Value)
  | closure (env : Env) (param : String) (body : Expr)
  | primitive (function : Primitive)
  /-- The result of a run that ended in an error, by its message. -/
  | failed (message : String)

/-- A chain of bindings, the one in front shadowing those behind. The value of a recursive binding
is in a cell of the store, so that closures made while it is computed can refer to it. -/
inductive Env where
  | empty
  | bind (name : String) (value : Value) (rest : Env)
  | recursive (name : String) (cell : Nat) (rest : Env)

end

deriving instance DecidableEq, Repr for Expr, Value, Env

instance : Inhabited Expr := ⟨.nil⟩

instance : Inhabited Value := ⟨.nil⟩

instance : Inhabited Env := ⟨.empty⟩

namespace Expr

/-- Conditionals, definitions and functions, which extend as far to the right as they can. -/
def isOpen : Expr → Bool
  | cond .. | letIn .. | lambda .. => true
  | _ => false

/-- The operation with the given symbol, which need not be one of the language. -/
def operation (symbol : String) (left right : Expr) : Expr :=
  match Operator.ofSymbol? symbol with
  | some op => binary op left right
  | none => unknown symbol left right

/-- The function of the given parameters, one after the other. -/
def curried (params : List String) (body : Expr) : Expr :=
  params.foldr lambda body

def ofItems (items : List Expr) : Expr :=
  items.foldr (binary .cons) nil

end Expr

namespace Value

/-- Whether the value can be applied to an argument. -/
def isFunction : Value → Bool
  | closure .. | primitive _ => true
  | _ => false

def isInt : Value → Bool
  | int _ => true
  | _ => false

def isBool : Value → Bool
  | bool _ => true
  | _ => false

def isNil : Value → Bool
  | nil => true
  | _ => false

/-- Whether the value stands for a run that ended in an error. -/
def isFailed : Value → Bool
  | failed _ => true
  | _ => false

end Value

end MiniFun
