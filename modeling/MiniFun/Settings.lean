import MiniFun.Log
import MiniFun.Text.Blank
import MiniFun.Text.Decimal

/-! # Settings

Two variables of the environment of the process are read, each with a default for when it is
missing or makes no sense: a limit on recursion and the level of log lines.
-/

namespace MiniFun

open Text

/-- The digits of a numeral in which single underscores may stand between digits. -/
def groupedDigits? : List Char → Option (List Char)
  | [] => none
  | [c] => if isDigit c then some [c] else none
  | c :: '_' :: rest => if isDigit c then (c :: ·) <$> groupedDigits? rest else none
  | c :: rest => if isDigit c then (c :: ·) <$> groupedDigits? rest else none

/-- The natural number of a numeral with underscores. -/
def readGrouped? (chars : List Char) : Option Nat :=
  (groupedDigits? chars).bind readNumeral?

/-- The integer that a text denotes, with a sign or without. -/
def readInteger? : List Char → Option Int
  | '+' :: rest => (readGrouped? rest).map fun value => (value : Int)
  | '-' :: rest => (readGrouped? rest).map fun value => -(value : Int)
  | chars => (readGrouped? chars).map fun value => (value : Int)

/-- The upper-case form of a character, where it is made of letters of the basic alphabet. Any
other character stays as it is, since no level is written with it. -/
def upperCase (c : Char) : List Char :=
  match c.toNat with
  | 0xDF => ['S', 'S']
  | 0x131 => ['I']
  | 0x17F => ['S']
  | 0xFB00 => ['F', 'F']
  | 0xFB01 => ['F', 'I']
  | 0xFB02 => ['F', 'L']
  | 0xFB03 => ['F', 'F', 'I']
  | 0xFB04 => ['F', 'F', 'L']
  | 0xFB05 | 0xFB06 => ['S', 'T']
  | _ => [c.toUpper]

/-- What the environment of the process settles. -/
structure Settings where
  recursionLimit : Int
  logLevel : LogLevel
deriving DecidableEq, Repr, Inhabited

namespace Settings

/-- The limit on recursion when none is given. -/
def defaultRecursionLimit : Int := 10000

/-- The limit on recursion is never set lower. -/
def leastRecursionLimit : Int := 1000

/-- The limit on recursion that a variable asks for. -/
def recursionLimitOf (given : Option String) : Int :=
  let wanted := given.bind fun text => readInteger? (trimChars text.toList)
  max (wanted.getD defaultRecursionLimit) leastRecursionLimit

/-- The level of log lines that a variable asks for, in upper or lower case. -/
def logLevelOf (given : Option String) : LogLevel :=
  let wanted := given.bind fun text =>
    LogLevel.ofName? (String.ofList ((trimChars text.toList).flatMap upperCase))
  wanted.getD .warning

def ofVariables (recursionLimit? logLevel? : Option String) : Settings :=
  ⟨recursionLimitOf recursionLimit?, logLevelOf logLevel?⟩

end Settings

end MiniFun
