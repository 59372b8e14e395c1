import MiniFun.Error
import MiniFun.Expr

/-! # Operations on values

What the operators and the functions of the host do with evaluated operands. Integers, truth values
and lists are never converted into one another. The empty list may be compared with any value, and
is equal to itself alone.
-/

namespace MiniFun

namespace Operator

def onInts (operation : Int → Int → Value) : Value → Value → Except Error Value
  | .int a, .int b => .ok (operation a b)
  | _, _ => .error (.mistyped .notIntegers)

def onBools (operation : Bool → Bool → Bool) : Value → Value → Except Error Value
  | .bool a, .bool b => .ok (.bool (operation a b))
  | _, _ => .error (.mistyped .notBooleans)

/-- Whether two values are equal, where they can be compared at all. -/
def areEqual? : Value → Value → Option Bool
  | .nil, right => some right.isNil
  | _, .nil => some false
  | .int a, .int b => some (a == b)
  | .bool a, .bool b => some (a == b)
  | _, _ => none

def onEquality (op : Operator) (answer : Bool → Bool) (left right : Value) :
    Except Error Value :=
  match areEqual? left right with
  | some result => .ok (.bool (answer result))
  | none => .error (.mistyped (.incomparable op))

def apply (op : Operator) (left right : Value) : Except Error Value :=
  match op with
  | cons => .ok (.pair left right)
  | plus => onInts (fun a b => .int (a + b)) left right
  | minus => onInts (fun a b => .int (a - b)) left right
  | times => onInts (fun a b => .int (a * b)) left right
  | less => onInts (fun a b => .bool (a < b)) left right
  | lessEqual => onInts (fun a b => .bool (a ≤ b)) left right
  | equal => onEquality equal id left right
  | notEqual => onEquality notEqual not left right
  | both => onBools and left right
  | either => onBools or left right

/-- The result of the operator with the given symbol, if there is one. -/
def applySymbol (symbol : String) (left right : Value) : Except Error Value :=
  match ofSymbol? symbol with
  | some op => op.apply left right
  | none => .error (.internal (.unknownOperator symbol))

end Operator

/-- The result of a function of the host. The tail of the empty list is the empty list; it has no
head. -/
def HostFunction.apply : HostFunction → Value → Except Error Value
  | head, .pair first _ => .ok first
  | head, .nil => .error (.emptyList .head)
  | head, _ => .error (.mistyped .headOfNonList)
  | tail, .pair _ rest => .ok rest
  | tail, .nil => .ok .nil
  | tail, _ => .error (.mistyped .tailOfNonList)
  | identity, value => .ok value
  | failing, _ => .error (.mistyped (.reported "host failure"))

def Primitive.apply (primitive : Primitive) (argument : Value) : Except Error Value :=
  primitive.function.apply argument

end MiniFun
