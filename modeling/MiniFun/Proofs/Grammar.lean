import MiniFun.Expr
import MiniFun.Text.Decimal
import MiniFun.Token

/-! # The grammar of programs

A phrase is a list of words of some category: operations of one of the six levels, an application,
an atom, or the items of a list. The levels are those of the operators, and the operands of a level
are the phrases of the next tighter one. Each rule of `Derives` gives the words of a phrase and the
expression that it denotes; no rule mentions a parser, a stream or a position.

Functions, definitions and conditionals have no closing word. A phrase whose last word belongs to
one of them is trailing: nothing may follow it within an operation or an application, since the
binding form would take what follows for itself. Only the words that end an expression close it.
-/

namespace MiniFun

/-- How operators of one level combine when several of them follow one another. -/
inductive Associativity where
  | left
  | right
  /-- They do not combine: a phrase has at most one of them. -/
  | none
deriving DecidableEq, Repr, Inhabited

/-- The syntactic categories of the words inside of a program. -/
inductive Category where
  | operations (level : Level)
  | application
  | atom
  /-- One or more expressions with commas between them. -/
  | items
deriving DecidableEq, Repr, Inhabited

namespace Level

/-- Every level combines to the left, but for the comparisons and for `:`. -/
def associativity : Level → Associativity
  | comparison => .none
  | construction => .right
  | disjunction | conjunction | sum | product => .left

/-- The operands of a level are phrases of the next tighter category. -/
def operand : Level → Category
  | disjunction => .operations conjunction
  | conjunction => .operations comparison
  | comparison => .operations construction
  | construction => .operations sum
  | sum => .operations product
  | product => .application

end Level

/-- Whole expressions are operations of the loosest level. -/
abbrev Category.expression : Category := .operations .disjunction

/-- Whether the last word of a phrase belongs to a binding form that no bracket closes. -/
inductive Ending where
  | closed
  | trailing
deriving DecidableEq, Repr, Inhabited

/-- The words of a phrase of a category, how they end, and the expression that they denote. -/
inductive Derives : Category → Ending → List Lexeme → Expr → Prop
  | numeral {digits : String} {value : Nat}
      (readable : Text.readNumeral? digits.toList = some value) :
      Derives .atom .closed [.number digits] (.int value)
  | truth : Derives .atom .closed [.keyword .trueWord] (.bool true)
  | falsehood : Derives .atom .closed [.keyword .falseWord] (.bool false)
  | reference (name : String) : Derives .atom .closed [.ident name] (.var name)
  | parentheses {ending : Ending} {inner : List Lexeme} {expr : Expr} :
      Derives .expression ending inner expr →
      Derives .atom .closed (.leftParen :: (inner ++ [.rightParen])) expr
  | emptyList : Derives .atom .closed [.leftBracket, .rightBracket] .nil
  | list {ending : Ending} {inner : List Lexeme} {expr : Expr} :
      Derives .items ending inner expr →
      Derives .atom .closed (.leftBracket :: (inner ++ [.rightBracket])) expr
  | lastItem {ending : Ending} {words : List Lexeme} {item : Expr} :
      Derives .expression ending words item →
      Derives .items ending words (.binary .cons item .nil)
  | moreItems {first ending : Ending} {front back : List Lexeme} {item rest : Expr} :
      Derives .expression first front item → Derives .items ending back rest →
      Derives .items ending (front ++ .comma :: back) (.binary .cons item rest)
  | function {ending : Ending} {params : List String} {inner : List Lexeme} {body : Expr}
      (nonempty : params ≠ []) :
      Derives .expression ending inner body →
      Derives .application .trailing
        (.backslash :: (params.map .ident ++ .arrow :: inner)) (.curried params body)
  | definition {first second : Ending} {params : List String} {front back : List Lexeme}
      {bound body : Expr} (name : String) :
      Derives .expression first front bound → Derives .expression second back body →
      Derives .application .trailing
        (.keyword .letWord :: .ident name :: (params.map .ident ++ .equals ::
          (front ++ .keyword .inWord :: back)))
        (.letIn name (.curried params bound) body)
  | conditional {first second third : Ending} {front middle back : List Lexeme}
      {test consequent alternative : Expr} :
      Derives .expression first front test → Derives .expression second middle consequent →
      Derives .expression third back alternative →
      Derives .application .trailing
        (.keyword .ifWord :: (front ++ .keyword .thenWord ::
          (middle ++ .keyword .elseWord :: back)))
        (.cond test consequent alternative)
  | single {words : List Lexeme} {expr : Expr} :
      Derives .atom .closed words expr → Derives .application .closed words expr
  | apply {front back : List Lexeme} {function argument : Expr} :
      Derives .application .closed front function → Derives .atom .closed back argument →
      Derives .application .closed (front ++ back) (.apply function argument)
  | operand {level : Level} {ending : Ending} {words : List Lexeme} {expr : Expr} :
      Derives level.operand ending words expr → Derives (.operations level) ending words expr
  | toLeft {level : Level} {op : Operator} {ending : Ending} {front back : List Lexeme}
      {left right : Expr} (assoc : level.associativity = .left) (atLevel : op.level = level) :
      Derives (.operations level) .closed front left → Derives level.operand ending back right →
      Derives (.operations level) ending (front ++ .operator op :: back) (.binary op left right)
  | toRight {level : Level} {op : Operator} {ending : Ending} {front back : List Lexeme}
      {left right : Expr} (assoc : level.associativity = .right) (atLevel : op.level = level) :
      Derives level.operand .closed front left → Derives (.operations level) ending back right →
      Derives (.operations level) ending (front ++ .operator op :: back) (.binary op left right)
  | once {level : Level} {op : Operator} {ending : Ending} {front back : List Lexeme}
      {left right : Expr} (assoc : level.associativity = .none) (atLevel : op.level = level) :
      Derives level.operand .closed front left → Derives level.operand ending back right →
      Derives (.operations level) ending (front ++ .operator op :: back) (.binary op left right)

/-- An application without operators is a phrase of every level. -/
theorem Derives.ofApplication {ending : Ending} {words : List Lexeme} {expr : Expr}
    (derived : Derives .application ending words expr) (level : Level) :
    Derives (.operations level) ending words expr := by
  have product : Derives (.operations .product) ending words expr := .operand derived
  have sum : Derives (.operations .sum) ending words expr := .operand product
  have construction : Derives (.operations .construction) ending words expr := .operand sum
  have comparison : Derives (.operations .comparison) ending words expr := .operand construction
  have conjunction : Derives (.operations .conjunction) ending words expr := .operand comparison
  cases level with
  | disjunction => exact .operand conjunction
  | conjunction => exact conjunction
  | comparison => exact comparison
  | construction => exact construction
  | sum => exact sum
  | product => exact product

/-- A program is an expression, which may end in any way. -/
def Denotes (words : List Lexeme) (expr : Expr) : Prop :=
  ∃ ending, Derives .expression ending words expr

end MiniFun
