/-! # Operators

The ten binary operators. Each has the symbol that programs write, the name that error messages
use, and the level at which it binds. The levels are listed from the loosest to the tightest;
application binds tighter than all of them.
-/

namespace MiniFun

inductive Operator where
  | plus
  | minus
  | times
  | less
  | lessEqual
  | equal
  | notEqual
  | both
  | either
  | cons
deriving DecidableEq, Repr, Inhabited

/-- How tightly an operator binds, the loosest first. -/
inductive Level where
  | disjunction
  | conjunction
  | comparison
  | construction
  | sum
  | product
deriving DecidableEq, Repr, Inhabited

namespace Operator

def all : List Operator :=
  [plus, minus, times, less, lessEqual, equal, notEqual, both, either, cons]

/-- The operator as programs write it. -/
def symbol : Operator → String
  | plus => "+"
  | minus => "-"
  | times => "*"
  | less => "<"
  | lessEqual => "<="
  | equal => "=="
  | notEqual => "/="
  | both => "&&"
  | either => "||"
  | cons => ":"

/-- The operator as error messages call it. -/
def name : Operator → String
  | plus => "Plus"
  | minus => "Minus"
  | times => "Mul"
  | less => "Lt"
  | lessEqual => "Le"
  | equal => "Eq"
  | notEqual => "Ne"
  | both => "And"
  | either => "Or"
  | cons => "Cons"

def level : Operator → Level
  | either => .disjunction
  | both => .conjunction
  | equal | notEqual | less | lessEqual => .comparison
  | cons => .construction
  | plus | minus => .sum
  | times => .product

def ofSymbol? (symbol : String) : Option Operator :=
  all.find? fun operator => operator.symbol == symbol

end Operator

end MiniFun
