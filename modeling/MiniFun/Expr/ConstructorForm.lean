import MiniFun.Expr.Printer
import MiniFun.Text.Quoted

/-! # Constructor forms

The constructor form of a tree names each node and its parts, so that trees which print alike can
be told apart. Error messages about nodes that cannot be evaluated show it.
-/

namespace MiniFun

open Text

def nodeForm (node : String) (parts : List (String × String)) : String :=
  node ++ "(" ++ String.intercalate ", " (parts.map fun part => part.1 ++ "=" ++ part.2) ++ ")"

def Operator.form (op : Operator) : String :=
  "<Binop." ++ op.name ++ ": " ++ quoted op.symbol ++ ">"

mutual

/-- The constructor form of an expression; `none` if it holds an integer that is too long. -/
def Expr.form? : Expr → Option String
  | .int value => do
    let numeral ← writeNumeral? value
    return nodeForm "EInt" [("value", numeral)]
  | .bool value => some (nodeForm "EBool" [("value", boolText value)])
  | .var name => some (nodeForm "EVar" [("name", quoted name)])
  | .nil => some (nodeForm "ENil" [])
  | .binary op left right => do
    let leftForm ← left.form?
    let rightForm ← right.form?
    return nodeForm "EBin" [("op", op.form), ("left", leftForm), ("right", rightForm)]
  | .unknown symbol left right => do
    let leftForm ← left.form?
    let rightForm ← right.form?
    return nodeForm "EBin" [("op", quoted symbol), ("left", leftForm), ("right", rightForm)]
  | .cond test consequent alternative => do
    let testForm ← test.form?
    let consequentForm ← consequent.form?
    let alternativeForm ← alternative.form?
    return nodeForm "EIf" [("cond", testForm), ("then", consequentForm), ("else_", alternativeForm)]
  | .letIn name bound body => do
    let boundForm ← bound.form?
    let bodyForm ← body.form?
    return nodeForm "ELet" [("name", quoted name), ("bound", boundForm), ("body", bodyForm)]
  | .lambda param body => do
    let bodyForm ← body.form?
    return nodeForm "ELam" [("param", quoted param), ("body", bodyForm)]
  | .apply function argument => do
    let functionForm ← function.form?
    let argumentForm ← argument.form?
    return nodeForm "EApp" [("fn", functionForm), ("arg", argumentForm)]
  | .embedded value => value.form?

/-- The constructor form of a value; `none` if it holds an integer that is too long. Closures show
their code, as they do in results; other functions show what the host has for them. -/
def Value.form? : Value → Option String
  | .int value => writeNumeral? value
  | .bool value => some (boolText value)
  | .nil => some "[]"
  | .pair head tail => do
    let headForm ← head.form?
    let tailForm ← tail.form?
    return nodeForm "Pair" [("head", headForm), ("tail", tailForm)]
  | .closure env param body => Value.text? (.closure env param body)
  | .primitive primitive =>
    some (nodeForm "Primitive" [("name", quoted primitive.name), ("fn", primitive.functionText)])
  | .failed message => some (nodeForm "VErr" [("message", quoted message)])

end

end MiniFun
