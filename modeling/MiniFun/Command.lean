import MiniFun.Command.Arguments
import MiniFun.Command.Directory
import MiniFun.Log
import MiniFun.Repl
import MiniFun.SourceFile

/-! # The command

The command runs a file, runs an expression, or holds a session line by line. Results go to
standard output, log lines and complaints to standard error. The status is zero after a value, one
after an error of the program, and two if there was nothing to run.
-/

namespace MiniFun.Command

/-- What a call of the command leaves behind. -/
structure Report where
  status : Nat
  stdout : String
  stderr : String
deriving DecidableEq, Repr, Inhabited

inductive Mode where
  | file (path : String)
  | expression (source : String)
  | session
deriving DecidableEq, Repr, Inhabited

/-- What the arguments say to do. An empty file name counts as none, and so does an empty
expression beside a file. -/
def Arguments.mode (arguments : Arguments) : Except Refusal Mode :=
  match arguments.file.getD "", arguments.expr with
  | "", none => .ok .session
  | "", some source => .ok (.expression source)
  | path, none | path, some "" => .ok (.file path)
  | _, some _ => .error .fileAndExpression

/-- The first line of the help, which complaints repeat. -/
def usage : String := "usage: nano [-h] [-e EXPR] [--verbose] [file]\n"

def help : String :=
  usage ++ "\n" ++
  "Nano - evaluate programs in a small functional language\n" ++ "\n" ++
  "positional arguments:\n" ++
  "  file                  Nano source file to run\n" ++ "\n" ++
  "options:\n" ++
  "  -h, --help            show this help message and exit\n" ++
  "  -e EXPR, --expr EXPR  Evaluate EXPR and print the result\n" ++
  "  --verbose             Verbose output\n"

/-- What is written before each line of a session at a terminal. -/
def terminalPrompt : String := "nano> "

def refusalReport (refusal : Refusal) : Report :=
  ⟨2, "", usage ++ "nano: error: " ++ refusal.message ++ "\n"⟩

def outcomeLog : Outcome → List LogEntry
  | .value _ => []
  | .rejected cause => [⟨.debug, "nano.interpreter", "parse failed: " ++ cause.message⟩]
  | .failed cause => [⟨.debug, "nano.interpreter", "evaluation failed: " ++ cause.message⟩]

def runningLog (path : String) : LogEntry :=
  ⟨.info, "nano.interpreter", "running " ++ path⟩

def faultLog (path : String) : FileFault → LogEntry
  | .unreadable fault => ⟨.error, "nano", "cannot read " ++ path ++ ": " ++ fault.message⟩
  | .undecodable fault =>
    ⟨.error, "nano", "cannot decode " ++ path ++ " as UTF-8: " ++ fault.message⟩

/-- Runs a program and reports on it, with the given log lines in front. -/
def programReport (threshold : LogLevel) (log : List LogEntry) (source : String) :
    Computation Report := do
  let outcome ← Interpreter.standard.attemptText source
  let shown ← .ofText outcome.toValue.text?
  let status := if outcome.toValue.isFailed then 1 else 0
  return ⟨status, shown ++ "\n", LogEntry.render threshold (log ++ outcomeLog outcome)⟩

/-- Runs a file and reports on it, given what reading it brought. Nothing can be read at a path with
a null character. -/
def fileReport (threshold : LogLevel) (path : String)
    (contents : Except ReadFault (List UInt8)) : Computation Report :=
  if path.toList.contains '\x00' then
    throw .nullInPath
  else
    match SourceFile.load contents with
    | .ok source => programReport threshold [runningLog path] source
    | .error fault => return ⟨2, "", LogEntry.render threshold [faultLog path fault]⟩

def sessionReport (threshold : LogLevel) (prompt input : String) : Computation Report := do
  let exchanges ← Repl.session .standard input
  let log := (exchanges.filterMap Exchange.outcome?).flatMap outcomeLog
  return ⟨Repl.status exchanges, Repl.output prompt exchanges, LogEntry.render threshold log⟩

/-- The least severe level that is shown: everything from debugging on, if that is asked for. -/
def Arguments.threshold (arguments : Arguments) (configured : LogLevel) : LogLevel :=
  if arguments.verbose then .debug else configured

/-- What follows from the arguments, before anything else is read. -/
inductive Plan where
  /-- Nothing is run: help was asked for, or the arguments were refused. -/
  | answer (report : Report)
  | perform (mode : Mode) (threshold : LogLevel)
deriving DecidableEq, Repr, Inhabited

def Plan.ofArguments (arguments : List String) (configured : LogLevel) : Plan :=
  match Request.ofArguments arguments with
  | .error refusal => .answer (refusalReport refusal)
  | .ok .help => .answer ⟨0, help, ""⟩
  | .ok (.run arguments) =>
    match arguments.mode with
    | .error refusal => .answer (refusalReport refusal)
    | .ok mode => .perform mode (arguments.threshold configured)

/-- The prompt of a session. Only a terminal gets one. -/
def promptFor (terminal : Bool) : String :=
  if terminal then terminalPrompt else ""

/-- What a call of the command finds. -/
structure Surroundings where
  directory : Directory
  input : String
  /-- Whether the input comes from a terminal. -/
  terminal : Bool
  /-- The level of log lines that is configured. -/
  logLevel : LogLevel
deriving DecidableEq, Repr, Inhabited

def run (arguments : List String) (surroundings : Surroundings) : Computation Report :=
  match Plan.ofArguments arguments surroundings.logLevel with
  | .answer report => return report
  | .perform (.file path) threshold =>
    fileReport threshold path (surroundings.directory.read path)
  | .perform (.expression source) threshold => programReport threshold [] source
  | .perform .session threshold =>
    sessionReport threshold (promptFor surroundings.terminal) surroundings.input

end MiniFun.Command
