import MiniFun.Expr
import MiniFun.Stream

/-! # Parsing expressions

The grammar has one parser for each of its levels, from the loosest to the tightest:

* `||` and `&&`, each to the left;
* the comparisons, at most one of them;
* `:`, to the right;
* `+` and `-`, then `*`, to the left;
* application, to the left;
* atoms: numerals, truth values, variables, lists, and expressions in parentheses.

Functions, definitions and conditionals may stand wherever an operand may, and extend as far to
the right as they can. Each level is given the parser for whole expressions that the brackets and
the binding forms inside of it use, and a limit on its repetitions. `expression` ties the knot:
its limit bounds both the nesting and the repetitions, and one more than the number of tokens is
always enough.
-/

namespace MiniFun

open Text

/-- The forms that bind a name or choose between two expressions. -/
inductive BindingForm where
  | function
  | definition
  | conditional
deriving DecidableEq, Repr, Inhabited

/-- The binding form that a token opens. -/
def BindingForm.openedBy? : Option Lexeme → Option BindingForm
  | some .backslash => some .function
  | some (.keyword .letWord) => some .definition
  | some (.keyword .ifWord) => some .conditional
  | _ => none

def Lexeme.startsAtom : Lexeme → Bool
  | .number _ | .ident _ | .leftParen | .leftBracket => true
  | .keyword .trueWord | .keyword .falseWord => true
  | _ => false

namespace Parser

def peekLexeme : Parser (Option Lexeme) := do
  return (← peek).map Token.lexeme

def expectKind (kind : Kind) : Parser Unit := do
  let _ ← expect (.ofKind kind)

def expectKeyword (word : Keyword) : Parser Unit := do
  let _ ← expect (.ofKeyword word)

def expectIdent : Parser String := do
  return foundText (← expect (.ofKind .ident))

/-! ## Atoms -/

def numeral (digits : String) : Parser Expr :=
  match readNumeral? digits.toList with
  | some value => return .int value
  | none => throw (.longNumeral digits.length)

/-- The items that follow commas. -/
def furtherItems (expr : Parser Expr) : Nat → Parser (List Expr)
  | 0 => throw .tooDeep
  | limit + 1 => do
    if ← sees (.ofKind .comma) then
      let _ ← take
      let item ← expr
      return item :: (← furtherItems expr limit)
    else
      return []

/-- The rest of a list whose opening bracket was taken. -/
def listRest (limit : Nat) (expr : Parser Expr) : Parser Expr := do
  if ← sees (.ofKind .rightBracket) then
    expectKind .rightBracket
    return .nil
  else
    let first ← expr
    let rest ← furtherItems expr limit
    expectKind .rightBracket
    return .ofItems (first :: rest)

/-- A numeral, a truth value, a variable, a list, or an expression in parentheses. A token that
begins none of them is taken all the same. -/
def atom (limit : Nat) (expr : Parser Expr) : Parser Expr := do
  let found ← take
  match found.map Token.lexeme with
  | some (.number digits) => numeral digits
  | some (.keyword .trueWord) => return .bool true
  | some (.keyword .falseWord) => return .bool false
  | some (.ident name) => return .var name
  | some .leftParen =>
    let inner ← expr
    expectKind .rightParen
    return inner
  | some .leftBracket => listRest limit expr
  | _ => reject (.unexpected (found.map Token.text)) found

/-! ## Binding forms -/

/-- The parameters up to the first token that is none. -/
def params : Nat → Parser (List String)
  | 0 => throw .tooDeep
  | limit + 1 => do
    match ← peekLexeme with
    | some (.ident name) =>
      let _ ← take
      return name :: (← params limit)
    | _ => return []

def function (limit : Nat) (expr : Parser Expr) : Parser Expr := do
  expectKind .backslash
  match ← params limit with
  | [] => reject .missingParameter (← peek)
  | names =>
    expectKind .arrow
    return .curried names (← expr)

/-- A definition; parameters after the defined name make it a function. -/
def definition (limit : Nat) (expr : Parser Expr) : Parser Expr := do
  expectKeyword .letWord
  let name ← expectIdent
  let names ← params limit
  expectKind .equals
  let bound ← expr
  expectKeyword .inWord
  let body ← expr
  return .letIn name (.curried names bound) body

def conditional (expr : Parser Expr) : Parser Expr := do
  expectKeyword .ifWord
  let test ← expr
  expectKeyword .thenWord
  let consequent ← expr
  expectKeyword .elseWord
  return .cond test consequent (← expr)

def bindingForm (limit : Nat) (expr : Parser Expr) : BindingForm → Parser Expr
  | .function => function limit expr
  | .definition => definition limit expr
  | .conditional => conditional expr

/-! ## Application and operators -/

/-- Applies a function to the atoms that follow, one after the other. -/
def arguments (atom : Parser Expr) : Nat → Expr → Parser Expr
  | 0, _ => throw .tooDeep
  | limit + 1, function => do
    if (← peekLexeme).any Lexeme.startsAtom then
      arguments atom limit (.apply function (← atom))
    else
      return function

/-- An atom and its arguments, or a binding form. -/
def application (limit : Nat) (expr : Parser Expr) : Parser Expr := do
  match BindingForm.openedBy? (← peekLexeme) with
  | some form => bindingForm limit expr form
  | none =>
    let function ← atom limit expr
    arguments (atom limit expr) limit function

/-- Takes the next token if it is an operator of the level. -/
def operator? (level : Level) : Parser (Option Operator) := do
  match ← peekLexeme with
  | some (.operator op) =>
    if op.level = level then
      let _ ← take
      return some op
    else
      return none
  | _ => return none

/-- Combines an operand with those that follow, to the left. -/
def leftOperands (level : Level) (operand : Parser Expr) : Nat → Expr → Parser Expr
  | 0, _ => throw .tooDeep
  | limit + 1, left => do
    match ← operator? level with
    | some op => leftOperands level operand limit (.binary op left (← operand))
    | none => return left

/-- Operands between operators of a level that combines to the left. -/
def leftChain (level : Level) (operand : Parser Expr) (limit : Nat) : Parser Expr := do
  leftOperands level operand limit (← operand)

/-- Combines an operand with those that follow, to the right. -/
def rightOperands (level : Level) (operand : Parser Expr) : Nat → Expr → Parser Expr
  | 0, _ => throw .tooDeep
  | limit + 1, left => do
    match ← operator? level with
    | some op =>
      let next ← operand
      return .binary op left (← rightOperands level operand limit next)
    | none => return left

/-- Operands between operators of a level that combines to the right. -/
def rightChain (level : Level) (operand : Parser Expr) (limit : Nat) : Parser Expr := do
  rightOperands level operand limit (← operand)

/-- An operand, or two of them with an operator between. A second operator of the level is
refused. -/
def noChain (level : Level) (operand : Parser Expr) : Parser Expr := do
  let left ← operand
  match ← operator? level with
  | none => return left
  | some op =>
    let right ← operand
    let found ← peek
    match found.map Token.lexeme with
    | some (.operator second) =>
      if second.level = level then
        reject (.chainedComparison second) found
      else
        return .binary op left right
    | _ => return .binary op left right

def product (limit : Nat) (expr : Parser Expr) : Parser Expr :=
  leftChain .product (application limit expr) limit

def sum (limit : Nat) (expr : Parser Expr) : Parser Expr :=
  leftChain .sum (product limit expr) limit

def construction (limit : Nat) (expr : Parser Expr) : Parser Expr :=
  rightChain .construction (sum limit expr) limit

/-- At most one comparison. -/
def comparison (limit : Nat) (expr : Parser Expr) : Parser Expr :=
  noChain .comparison (construction limit expr)

def conjunction (limit : Nat) (expr : Parser Expr) : Parser Expr :=
  leftChain .conjunction (comparison limit expr) limit

def disjunction (limit : Nat) (expr : Parser Expr) : Parser Expr :=
  leftChain .disjunction (conjunction limit expr) limit

/-- The operands of the level and the operators between them. -/
def operations (limit : Nat) (expr : Parser Expr) : Level → Parser Expr
  | .disjunction => disjunction limit expr
  | .conjunction => conjunction limit expr
  | .comparison => comparison limit expr
  | .construction => construction limit expr
  | .sum => sum limit expr
  | .product => product limit expr

/-! ## Expressions -/

/-- A binding form, or operations of the loosest level. -/
def expressionWith (limit : Nat) (expr : Parser Expr) : Parser Expr := do
  match BindingForm.openedBy? (← peekLexeme) with
  | some form => bindingForm limit expr form
  | none => disjunction limit expr

/-- An expression of limited nesting and limited repetitions. -/
def expression : Nat → Parser Expr
  | 0 => throw .tooDeep
  | limit + 1 => expressionWith limit (expression limit)

/-- An expression and nothing behind it. -/
def program (limit : Nat) : Parser Expr := do
  let expr ← expression limit
  match ← peek with
  | none => return expr
  | found => reject (.unexpected (found.map Token.text)) found

end Parser

/-- The phrases that a host program can ask a stream for. -/
inductive Phrase where
  /-- The whole input as one expression. -/
  | program
  | expression
  | binding (form : BindingForm)
  | operations (level : Level)
  | application
  | atom
  /-- A list whose opening bracket was taken. -/
  | listRest
deriving DecidableEq, Repr, Inhabited

namespace Phrase

def parseWithin (limit : Nat) : Phrase → Parser Expr
  | program => Parser.program limit
  | expression => Parser.expression limit
  | binding form => Parser.bindingForm limit (Parser.expression limit) form
  | operations level => Parser.operations limit (Parser.expression limit) level
  | application => Parser.application limit (Parser.expression limit)
  | atom => Parser.atom limit (Parser.expression limit)
  | listRest => Parser.listRest limit (Parser.expression limit)

/-- Takes a phrase from a stream. -/
def parse (phrase : Phrase) : Parser Expr := do
  phrase.parseWithin ((← get).remaining.length + 1)

end Phrase

/-- The expression that a text denotes. -/
def parse (source : String) : Except Failure Expr :=
  match Phrase.program.parse (Stream.ofString source) with
  | .ok expr _ => .ok expr
  | .error failure _ => .error failure

end MiniFun
