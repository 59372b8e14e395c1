import MiniFun.Text.Digit
import MiniFun.Text.Quoted

/-! # Command-line arguments

The arguments are options and at most one file. First every argument is classified by itself, then
the words are read from left to right. Long options may be abbreviated and may have their value
attached with an equals sign; short options may have it attached directly, with or without that
sign, and the letters behind the short option for help are short options too. Asking for help ends
reading at once. Arguments behind `--` are never options, and that separator is dropped where it
stands next to the file or in place of an attached expression.
-/

namespace MiniFun.Command

open Text

inductive Flag where
  | help
  | expr
  | verbose
deriving DecidableEq, Repr, Inhabited

namespace Flag

def all : List Flag := [help, expr, verbose]

/-- The spellings of the option, the short one first. -/
def spellings : Flag → List String
  | help => ["-h", "--help"]
  | expr => ["-e", "--expr"]
  | verbose => ["--verbose"]

def long : Flag → String
  | help => "--help"
  | expr => "--expr"
  | verbose => "--verbose"

def takesValue : Flag → Bool
  | expr => true
  | _ => false

/-- The options whose long spelling begins with the given one. -/
def abbreviatedBy (spelling : String) : List Flag :=
  all.filter fun flag => spelling.toList.isPrefixOf flag.long.toList

end Flag

inductive Refusal where
  | ambiguous (argument : String) (candidates : List Flag)
  | missingValue (flag : Flag)
  | unusedValue (flag : Flag) (value : String)
  | unrecognized (arguments : List String)
  | fileAndExpression
deriving DecidableEq, Repr, Inhabited

def Refusal.message : Refusal → String
  | ambiguous argument candidates =>
    "ambiguous option: " ++ argument ++ " could match " ++
      String.intercalate ", " (candidates.map Flag.long)
  | missingValue flag =>
    "argument " ++ String.intercalate "/" flag.spellings ++ ": expected one argument"
  | unusedValue flag value =>
    "argument " ++ String.intercalate "/" flag.spellings ++ ": ignored explicit argument " ++
      quoted value
  | unrecognized arguments => "unrecognized arguments: " ++ String.intercalate " " arguments
  | fileAndExpression => "give either FILE or -e, not both"

/-- An argument by itself. -/
inductive Word where
  | plain (text : String)
  /-- The argument `--`. -/
  | separator
  /-- An option, and the value that is attached to it. -/
  | flag (flag : Flag) (value : Option String)
  /-- The short option for help with further letters behind it. -/
  | helpCluster (letters : List Char)
  | unknown (text : String)
deriving DecidableEq, Repr, Inhabited

/-- One or more digits. -/
def isNumeral (chars : List Char) : Bool :=
  !chars.isEmpty && chars.all isDigit

/-- A minus sign in front of a decimal number; a line feed may follow. -/
def isNegativeNumber : List Char → Bool
  | '-' :: rest =>
    let body := if rest.getLast? = some '\n' then rest.dropLast else rest
    isNumeral body ||
      match body.dropWhile isDigit with
      | '.' :: fraction => isNumeral fraction
      | _ => false
  | _ => false

/-- A text up to its first equals sign, and what stands behind that. -/
def splitAtEquals (chars : List Char) : String × Option String :=
  let name := String.ofList (chars.takeWhile (· != '='))
  match chars.dropWhile (· != '=') with
  | [] => (name, none)
  | _ :: value => (name, some (String.ofList value))

/-- An argument that begins like an option and is none. Negative numbers and texts with spaces are
meant as they stand. -/
def classifyUnknown (argument : String) : Word :=
  if isNegativeNumber argument.toList || argument.toList.contains ' ' then
    .plain argument
  else
    .unknown argument

/-- What is attached to a short option: all that follows it, an equals sign in front dropped. -/
def attachment : List Char → List Char
  | '=' :: value => value
  | value => value

/-- An argument in front of any separator, by itself. -/
def classify (argument : String) : Except Refusal Word :=
  match argument.toList with
  | '-' :: '-' :: _ =>
    let (name, value) := splitAtEquals argument.toList
    match Flag.abbreviatedBy name with
    | [] => .ok (classifyUnknown argument)
    | [flag] => .ok (.flag flag value)
    | candidates => .error (.ambiguous argument candidates)
  | ['-', 'e'] => .ok (.flag .expr none)
  | '-' :: 'e' :: rest => .ok (.flag .expr (some (String.ofList (attachment rest))))
  | ['-', 'h'] => .ok (.flag .help none)
  | '-' :: 'h' :: rest =>
    match attachment rest with
    | [] => .ok (.flag .help (some ""))
    | letters => .ok (.helpCluster letters)
  | '-' :: _ :: _ => .ok (classifyUnknown argument)
  | _ => .ok (.plain argument)

/-- All arguments, each by itself. -/
def words : List String → Except Refusal (List Word)
  | [] => .ok []
  | argument :: rest =>
    if argument = "--" then
      .ok (.separator :: rest.map .plain)
    else do
      let word ← classify argument
      return word :: (← words rest)

/-- Whether the letters behind the short option for help leave an option without its value. Only
short options may stand there. -/
def clusterWantsValue : List Char → Except Refusal Bool
  | [] => .ok false
  | 'h' :: rest => clusterWantsValue rest
  | ['e'] => .ok true
  | 'e' :: _ => .ok false
  | letters => .error (.unusedValue .help (String.ofList letters))

/-- The expression that is attached to its option. A separator in its place is dropped, which leaves
an empty expression. -/
def attachedExpr (value : String) : String :=
  if value = "--" then "" else value

structure Arguments where
  file : Option String
  expr : Option String
  verbose : Bool
deriving DecidableEq, Repr, Inhabited

inductive Request where
  | help
  | run (arguments : Arguments)
deriving DecidableEq, Repr, Inhabited

/-- The arguments as far as they were read, and those that nothing takes. -/
structure Draft where
  arguments : Arguments
  fileTaken : Bool
  surplus : List String
deriving DecidableEq, Repr, Inhabited

namespace Draft

def empty : Draft := ⟨⟨none, none, false⟩, false, []⟩

def setFile (draft : Draft) (file : String) : Draft :=
  { draft with arguments := { draft.arguments with file := some file }, fileTaken := true }

/-- The draft with the expression settled; the last one counts. -/
def setExpr (draft : Draft) (expr : String) : Draft :=
  { draft with arguments := { draft.arguments with expr := some expr } }

def setVerbose (draft : Draft) : Draft :=
  { draft with arguments := { draft.arguments with verbose := true } }

/-- The draft with an argument that nothing takes. -/
def refuse (draft : Draft) (argument : String) : Draft :=
  { draft with surplus := draft.surplus ++ [argument] }

def finish (draft : Draft) : Except Refusal Request :=
  if draft.surplus.isEmpty then .ok (.run draft.arguments) else .error (.unrecognized draft.surplus)

end Draft

/-- Reads the words from left to right. -/
def Request.read (draft : Draft) : List Word → Except Refusal Request
  | [] => draft.finish
  | .plain text :: rest =>
    if draft.fileTaken then
      read (draft.refuse text) rest
    else
      match rest with
      | .separator :: behind => read (draft.setFile text) behind
      | rest => read (draft.setFile text) rest
  | .separator :: rest =>
    if draft.fileTaken then read (draft.refuse "--") rest else read draft rest
  | .unknown text :: rest => read (draft.refuse text) rest
  | .flag .help none :: _ => .ok .help
  | .flag .verbose none :: rest => read draft.setVerbose rest
  | .flag .expr none :: rest =>
    match rest with
    | .plain text :: behind => read (draft.setExpr text) behind
    | _ => .error (.missingValue .expr)
  | .flag flag (some value) :: rest =>
    if flag.takesValue then
      read (draft.setExpr (attachedExpr value)) rest
    else
      .error (.unusedValue flag value)
  | .helpCluster letters :: rest =>
    match clusterWantsValue letters, rest with
    | .error refusal, _ => .error refusal
    | .ok false, _ | .ok true, .plain _ :: _ => .ok .help
    | .ok true, _ => .error (.missingValue .expr)

def Request.ofArguments (arguments : List String) : Except Refusal Request := do
  Request.read .empty (← words arguments)

end MiniFun.Command
