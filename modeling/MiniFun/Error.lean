import MiniFun.Operator
import MiniFun.Text.Decimal
import MiniFun.Text.Quoted

/-! # Errors and failures

An error is a fault of the program that is read or evaluated. It is kept as its cause, and its
wording is given in one place, `Error.message`. Host code that extends the language words its own
errors; each class of error has a cause for them.

A failure is whatever ends a computation without a result: an error, or a limit of this
interpreter. Only errors are ever turned into data.
-/

namespace MiniFun

open Text

/-- Why a text is not a program. -/
inductive SyntaxFault where
  /-- A character with which no word begins. -/
  | strayCharacter (c : Char)
  /-- A token, or the end of the input, where no phrase continues with it. -/
  | unexpected (found : Option String)
  /-- Another token than the only possible one. -/
  | expected (wanted : String) (found : Option String)
  | missingParameter
  | chainedComparison (op : Operator)
  | reported (message : String)
deriving DecidableEq, Repr, Inhabited

/-- Why a value has the wrong shape for what is done with it. -/
inductive TypeFault where
  | notFunction
  | notBoolean
  | notIntegers
  | notBooleans
  | incomparable (op : Operator)
  | headOfNonList
  | tailOfNonList
  | reported (message : String)
deriving DecidableEq, Repr, Inhabited

inductive EmptyListFault where
  | head
  | reported (message : String)
deriving DecidableEq, Repr, Inhabited

/-- Why an expression is outside of the language. -/
inductive InternalFault where
  /-- A node that is a value and no expression, in its constructor form. -/
  | unevaluable (node : String)
  | unknownOperator (symbol : String)
  | reported (message : String)
deriving DecidableEq, Repr, Inhabited

/-- A fault of the program that is read or evaluated. -/
inductive Error where
  | general (message : String)
  /-- A variable without a value, and why it has none if it is bound all the same. -/
  | unbound (name : String) (reason : Option String)
  | mistyped (fault : TypeFault)
  | emptyList (fault : EmptyListFault)
  | internal (fault : InternalFault)
  /-- The position counts the characters in front of the fault. -/
  | malformed (fault : SyntaxFault) (position : Option Int)
deriving DecidableEq, Repr, Inhabited

/-- What stands where another token should: its text between quotes, or the end of the input. -/
def describeFound : Option String → String
  | none => "end of input"
  | some text => quoted text

/-- The wording of a syntax fault, its position apart. -/
def SyntaxFault.message : SyntaxFault → String
  | strayCharacter c => "unexpected character " ++ quoted (String.singleton c)
  | unexpected found => "unexpected " ++ describeFound found
  | expected wanted found => "expected " ++ quoted wanted ++ " but found " ++ describeFound found
  | missingParameter => "lambda requires a parameter"
  | chainedComparison op => "cannot chain comparison " ++ quoted op.symbol
  | reported message => message

def TypeFault.message : TypeFault → String
  | notFunction => "type error: expected function"
  | notBoolean => "type error: expected bool"
  | notIntegers => "type error: expected integers"
  | notBooleans => "type error: expected booleans"
  | incomparable op => "type error: incompatible types for " ++ op.name
  | headOfNonList => "head called on non-list"
  | tailOfNonList => "tail called on non-list"
  | reported message => message

def EmptyListFault.message : EmptyListFault → String
  | head => "head called on empty list"
  | reported message => message

def InternalFault.message : InternalFault → String
  | unevaluable node => "internal error: cannot evaluate " ++ node
  | unknownOperator symbol => "internal error: unknown operator " ++ quoted symbol
  | reported message => message

namespace Error

/-- The reason given for a variable that its own definition reads. -/
def selfReference : String := "used in its own definition"

/-- The wording of an error. A syntax error ends with its position, where it has one. -/
def message : Error → String
  | general message => message
  | unbound name none => "unbound variable: " ++ name
  | unbound name (some reason) => "unbound variable: " ++ name ++ " (" ++ reason ++ ")"
  | mistyped fault => fault.message
  | emptyList fault => fault.message
  | internal fault => fault.message
  | malformed fault none => fault.message
  | malformed fault (some position) => fault.message ++ " at " ++ decimal position

end Error

/-- Whatever ends a computation without a result. -/
inductive Failure where
  | error (cause : Error)
  /-- A numeral of a program has more digits than are read. -/
  | longNumeral (digits : Nat)
  /-- An integer has more digits than are written. -/
  | longInteger
  /-- A chain of pairs that had to end in the empty list ends in another value. -/
  | improperList (shownEnd : String)
  /-- Reading or evaluating a program nests deeper than its limit. -/
  | tooDeep
  /-- A null character stands in the path of a file, so that no file can be asked for. -/
  | nullInPath
deriving DecidableEq, Repr, Inhabited

def numeralLimitText : String :=
  "Exceeds the limit (" ++ decimal numeralLimit ++ " digits) for integer string conversion"

def numeralLimitAdvice : String :=
  "; use sys.set_int_max_str_digits() to increase the limit"

def Failure.message : Failure → String
  | error cause => cause.message
  | longNumeral digits =>
    numeralLimitText ++ ": value has " ++ decimal digits ++ " digits" ++ numeralLimitAdvice
  | longInteger => numeralLimitText ++ numeralLimitAdvice
  | improperList shownEnd => "not a proper list: tail is " ++ shownEnd
  | tooDeep => "nesting too deep"
  | nullInPath => "embedded null byte"

end MiniFun
