import MiniFun.Expr.Printer
import MiniFun.Store

/-! # Environments

An environment is an association list whose recursive bindings have their values in the store.
Looking a name up finds the first binding of that name, and nothing behind it: while the value of
a recursive binding is computed, its name has no value, whatever it meant before.
-/

namespace MiniFun.Env

def extend (env : Env) (name : String) (value : Value) : Env :=
  bind name value env

/-- The given bindings in front of an environment, the first of them foremost. -/
def push (bindings : List (String × Value)) (env : Env) : Env :=
  bindings.foldr (fun binding rest => rest.extend binding.1 binding.2) env

/-- The environment of the given bindings, the first of them foremost. -/
def ofBindings (bindings : List (String × Value)) : Env :=
  push bindings empty

/-- The bindings from front to back, shadowed ones included; the value of an unfilled one is
`none`. -/
def entries (store : Store) : Env → List (String × Option Value)
  | empty => []
  | bind name value rest => (name, some value) :: rest.entries store
  | recursive name cell rest => (name, store.read? cell) :: rest.entries store

/-- The bound names from front to back, shadowed ones included. -/
def names : Env → List String
  | empty => []
  | bind name _ rest | recursive name _ rest => name :: rest.names

/-- The number of bindings, shadowed ones included. -/
def size : Env → Nat
  | empty => 0
  | bind _ _ rest | recursive _ _ rest => rest.size + 1

def isEmpty : Env → Bool
  | empty => true
  | _ => false

/-- Whether the name is bound, be it to an unfilled cell. -/
def contains (name : String) : Env → Bool
  | empty => false
  | bind bound _ rest | recursive bound _ rest => bound == name || rest.contains name

/-- The value of the first binding of the name. -/
def find (store : Store) (name : String) : Env → Except Error Value
  | empty => .error (.unbound name none)
  | bind bound value rest =>
    if bound = name then .ok value else rest.find store name
  | recursive bound cell rest =>
    if bound = name then
      match store.read? cell with
      | some value => .ok value
      | none => .error (.unbound name (some Error.selfReference))
    else
      rest.find store name

/-- The value of the first binding of the name, in the present store. -/
def lookup (env : Env) (name : String) : Computation Value := do
  .ofStep (env.find (← get) name)

/-- Puts a recursive binding in front, with a fresh cell that is not filled yet. -/
def reserve (env : Env) (name : String) : Computation (Nat × Env) := do
  let cell := (← get).size
  modify Store.reserve
  return (cell, recursive name cell env)

/-- Binds the name to a value that is computed where the name is already bound. -/
def define (env : Env) (name : String) (compute : Env → Computation Value) :
    Computation Env := do
  let (cell, inner) ← env.reserve name
  let value ← compute inner
  modify fun store => store.fill cell value
  return inner

def shownEntry? : Option Value → Option String
  | some value => value.text?
  | none => some "<unset>"

/-- The environment with its bindings from front to back; `none` if one of them holds an integer
that is too long. -/
def text? (store : Store) (env : Env) : Option String := do
  let shown ← (env.entries store).mapM fun entry => do
    return entry.1 ++ "=" ++ (← shownEntry? entry.2)
  return "<Environment: " ++ String.intercalate ", " shown ++ ">"

end MiniFun.Env
