import MiniFun.Expr
import MiniFun.Text.Decimal

/-! # Expressions and values as text

Expressions are printed as programs, every operation and application in parentheses of its own.
The forms that extend as far to the right as they can get parentheses only where they are operands.
Values are printed for the reader of a result: a list as its pairs, a function as its code. The
text of an integer that is too long does not exist, and with it the text around it.
-/

namespace MiniFun

open Text

def boolText (value : Bool) : String :=
  if value then "True" else "False"

def HostFunction.name : HostFunction → String
  | head => "head"
  | tail => "tail"
  | identity => "id"
  | failing => "fail"

def Primitive.name (primitive : Primitive) : String :=
  primitive.function.name

/-- The text of an operand, given the text of its expression. -/
def Expr.enclose (operand : Expr) (text : String) : String :=
  if operand.isOpen then "(" ++ text ++ ")" else text

mutual

/-- The expression as a program; `none` if it holds an integer that is too long. -/
def Expr.text? : Expr → Option String
  | .int value => writeNumeral? value
  | .bool value => some (boolText value)
  | .var name => some name
  | .nil => some "[]"
  | .binary op left right => do
    let leftText ← left.text?
    let rightText ← right.text?
    return "(" ++ left.enclose leftText ++ " " ++ op.symbol ++ " " ++ right.enclose rightText ++ ")"
  | .unknown symbol left right => do
    let leftText ← left.text?
    let rightText ← right.text?
    return "(" ++ left.enclose leftText ++ " " ++ symbol ++ " " ++ right.enclose rightText ++ ")"
  | .cond test consequent alternative => do
    let testText ← test.text?
    let consequentText ← consequent.text?
    let alternativeText ← alternative.text?
    return "if " ++ testText ++ " then " ++ consequentText ++ " else " ++ alternativeText
  | .letIn name bound body => do
    let boundText ← bound.text?
    let bodyText ← body.text?
    return "let " ++ name ++ " = " ++ boundText ++ " in " ++ bodyText
  | .lambda param body => do
    let bodyText ← body.text?
    return "\\" ++ param ++ " -> " ++ bodyText
  | .apply function argument => do
    let functionText ← function.text?
    let argumentText ← argument.text?
    return "(" ++ function.enclose functionText ++ " " ++ argument.enclose argumentText ++ ")"
  | .embedded value => value.text?

/-- The value as results show it; `none` if it holds an integer that is too long. -/
def Value.text? : Value → Option String
  | .int value => writeNumeral? value
  | .bool value => some (boolText value)
  | .nil => some "[]"
  | .pair head tail => do
    let headText ← head.text?
    let tailText ← tail.text?
    return "(" ++ headText ++ " : " ++ tailText ++ ")"
  | .closure _ param body => do
    let bodyText ← body.text?
    return "<<closure: \\" ++ param ++ " -> " ++ bodyText ++ ">>"
  | .primitive function => some ("<<primitive: " ++ function.name ++ ">>")
  | .failed message => some ("ERROR: " ++ message)

end

end MiniFun
