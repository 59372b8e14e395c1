import MiniFun.Interpreter
import MiniFun.Text.Line

/-! # Sessions line by line

A session runs one program per line and shows each result. Blank lines are passed over, and a line
`:q` ends the session, as the end of the input does. Before each line that is read, the prompt is
written; the line that ends the session is read as well.
-/

namespace MiniFun

open Text

/-- What a session does with a line. -/
inductive Exchange where
  /-- Nothing: the line is blank. -/
  | silent
  /-- Runs the line and shows the result. -/
  | reply (outcome : Outcome) (shown : String)
deriving DecidableEq, Repr, Inhabited

namespace Exchange

/-- What is written in answer to the line. -/
def output : Exchange → String
  | silent => ""
  | reply _ shown => shown ++ "\n"

/-- How the program on the line ended. -/
def outcome? : Exchange → Option Outcome
  | silent => none
  | reply outcome _ => some outcome

end Exchange

namespace Repl

def quit : String := ":q"

def exchanges (interpreter : Interpreter) : List String → Computation (List Exchange)
  | [] => return []
  | line :: rest => do
    let source := trim line
    if source = "" then
      return .silent :: (← exchanges interpreter rest)
    else if source = quit then
      return []
    else
      let outcome ← interpreter.attemptText source
      let shown ← .ofText outcome.toValue.text?
      return .reply outcome shown :: (← exchanges interpreter rest)

def session (interpreter : Interpreter) (input : String) : Computation (List Exchange) :=
  exchanges interpreter ((lines input.toList).map String.ofList)

/-- What a session writes, with the prompt before each line that it reads. -/
def output (prompt : String) (exchanges : List Exchange) : String :=
  String.join (exchanges.map fun exchange => prompt ++ exchange.output) ++ prompt

/-- One if the last result is an error, else zero. -/
def status (exchanges : List Exchange) : Nat :=
  match (exchanges.filterMap Exchange.outcome?).getLast? with
  | some outcome => if outcome.toValue.isFailed then 1 else 0
  | none => 0

end Repl

end MiniFun
