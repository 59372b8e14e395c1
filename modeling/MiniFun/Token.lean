import MiniFun.Operator

/-! # Tokens

A lexeme is a word of a program together with its class; a token is a lexeme at the place where it
stands. The class of a lexeme is its kind, and the end of the input has a kind of its own although
it is no token.
-/

namespace MiniFun

inductive Keyword where
  | letWord
  | inWord
  | ifWord
  | thenWord
  | elseWord
  | trueWord
  | falseWord
deriving DecidableEq, Repr, Inhabited

namespace Keyword

def all : List Keyword :=
  [letWord, inWord, ifWord, thenWord, elseWord, trueWord, falseWord]

def text : Keyword → String
  | letWord => "let"
  | inWord => "in"
  | ifWord => "if"
  | thenWord => "then"
  | elseWord => "else"
  | trueWord => "True"
  | falseWord => "False"

def ofText? (text : String) : Option Keyword :=
  all.find? fun word => word.text == text

/-- No two reserved words have one text. -/
theorem text_inj {first second : Keyword} : first.text = second.text ↔ first = second := by
  cases first <;> cases second <;> simp [text]

end Keyword

/-- The classes of lexemes, and the end of the input. -/
inductive Kind where
  | number
  | ident
  | keyword
  | arrow
  | operator
  | equals
  | backslash
  | leftParen
  | rightParen
  | leftBracket
  | rightBracket
  | comma
  | endOfInput
deriving DecidableEq, Repr, Inhabited

namespace Kind

/-- The kind as error messages call it. -/
def name : Kind → String
  | number => "number"
  | ident => "ident"
  | keyword => "keyword"
  | arrow => "arrow"
  | operator => "op"
  | equals => "equals"
  | backslash => "backslash"
  | leftParen => "lparen"
  | rightParen => "rparen"
  | leftBracket => "lbracket"
  | rightBracket => "rbracket"
  | comma => "comma"
  | endOfInput => "eof"

/-- No two kinds have one name. -/
theorem name_inj {first second : Kind} : first.name = second.name ↔ first = second := by
  cases first <;> cases second <;> simp [name]

end Kind

/-- A word of a program. -/
inductive Lexeme where
  | number (digits : String)
  | ident (name : String)
  | keyword (word : Keyword)
  | arrow
  | operator (op : Operator)
  | equals
  | backslash
  | leftParen
  | rightParen
  | leftBracket
  | rightBracket
  | comma
deriving DecidableEq, Repr, Inhabited

namespace Lexeme

def kind : Lexeme → Kind
  | number _ => .number
  | ident _ => .ident
  | keyword _ => .keyword
  | arrow => .arrow
  | operator _ => .operator
  | equals => .equals
  | backslash => .backslash
  | leftParen => .leftParen
  | rightParen => .rightParen
  | leftBracket => .leftBracket
  | rightBracket => .rightBracket
  | comma => .comma

def text : Lexeme → String
  | number digits => digits
  | ident name => name
  | keyword word => word.text
  | arrow => "->"
  | operator op => op.symbol
  | equals => "="
  | backslash => "\\"
  | leftParen => "("
  | rightParen => ")"
  | leftBracket => "["
  | rightBracket => "]"
  | comma => ","

end Lexeme

/-- A word and the position of its first character, counted in characters from zero. -/
structure Token where
  lexeme : Lexeme
  position : Nat
deriving DecidableEq, Repr, Inhabited

namespace Token

def kind (token : Token) : Kind := token.lexeme.kind

def text (token : Token) : String := token.lexeme.text

end Token

end MiniFun
