import MiniFun.Token.Scan

/-! # Token streams

A stream hands out the tokens of a scan one after the other. It reads at most one token ahead,
which it keeps until that token is taken. If the scan was cut short, its error is raised when the
token after the last good one is asked for, and only once: from then on the stream is at its end.

Parsers are computations on a stream. What they have taken stays taken when they fail.
-/

namespace MiniFun

/-- Tokens still to be taken, and where the text ends. -/
structure Stream where
  /-- The token that was read ahead. -/
  lookahead : Option Token
  /-- The tokens that were not read yet. -/
  upcoming : List Token
  /-- The error behind the last token, as long as it was not raised. -/
  fault : Option Error
  /-- The position given to the end of the input. For the stream of a text it is the length of the
  text; host code may choose any other. -/
  endPosition : Int
deriving DecidableEq, Repr, Inhabited

namespace Stream

/-- The stream of a scan, with nothing taken yet. -/
def ofScan (scan : Scan) (endPosition : Int) : Stream :=
  ⟨none, scan.tokens, scan.fault, endPosition⟩

def ofString (source : String) : Stream :=
  ofScan (Scan.ofString source) source.length

/-- The tokens that were not taken yet. -/
def remaining (stream : Stream) : List Token :=
  stream.lookahead.toList ++ stream.upcoming

/-- Where a token stands, or the end of the input. -/
def positionOf (stream : Stream) : Option Token → Int
  | some token => token.position
  | none => stream.endPosition

end Stream

def foundKind : Option Token → Kind
  | some token => token.kind
  | none => .endOfInput

/-- The text of a token; nothing is written at the end of the input. -/
def foundText : Option Token → String
  | some token => token.text
  | none => ""

/-- What the next token has to be: of the kind with a name and, where it is given, with a text. A
name that no kind has can be asked for, and nothing meets that demand. -/
structure Demand where
  kindName : String
  text : Option String
deriving DecidableEq, Repr, Inhabited

namespace Demand

/-- Any token of the kind. -/
def ofKind (kind : Kind) : Demand := ⟨kind.name, none⟩

def ofKeyword (word : Keyword) : Demand := ⟨Kind.keyword.name, some word.text⟩

def accepts (demand : Demand) (found : Option Token) : Bool :=
  (foundKind found).name == demand.kindName && demand.text.all (· == foundText found)

/-- The demand as error messages state it: the text, or else the name of the kind. -/
def wanted (demand : Demand) : String :=
  demand.text.getD demand.kindName

/-- A demand for a kind is met by the tokens of that kind alone. -/
@[simp]
theorem accepts_ofKind (kind : Kind) (found : Option Token) :
    (ofKind kind).accepts found = true ↔ foundKind found = kind := by
  simp [accepts, ofKind, Kind.name_inj]

/-- A demand for a reserved word is met by that word alone. -/
@[simp]
theorem accepts_ofKeyword (word : Keyword) (found : Option Token) :
    (ofKeyword word).accepts found = true ↔ found.map Token.lexeme = some (.keyword word) := by
  simp only [accepts, ofKeyword, Bool.and_eq_true, beq_iff_eq, Kind.name_inj, Option.all_some]
  cases found with
  | none => simp [foundKind]
  | some token =>
    rcases token with ⟨lexeme, position⟩
    cases lexeme <;>
      simp [foundKind, foundText, Token.kind, Token.text, Lexeme.kind, Lexeme.text,
        Keyword.text_inj, eq_comm]

end Demand

/-- A computation that takes tokens from a stream. -/
abbrev Parser := EStateM Failure Stream

namespace Parser

/-- Reads the token behind the lookahead. At the end of the input there is none. -/
def pull : Parser (Option Token) := do
  let stream ← get
  match stream.upcoming with
  | token :: rest =>
    set { stream with upcoming := rest }
    return some token
  | [] =>
    match stream.fault with
    | some cause =>
      set { stream with fault := none }
      throw (.error cause)
    | none => return none

/-- The next token, which is not taken. -/
def peek : Parser (Option Token) := do
  match (← get).lookahead with
  | some token => return some token
  | none =>
    let found ← pull
    modify fun stream => { stream with lookahead := found }
    return found

def take : Parser (Option Token) := do
  let stream ← get
  match stream.lookahead with
  | some token =>
    set { stream with lookahead := none }
    return some token
  | none => pull

def sees (demand : Demand) : Parser Bool := do
  return demand.accepts (← peek)

/-- Fails at the place where something was found. -/
def reject {α : Type} (fault : SyntaxFault) (found : Option Token) : Parser α := do
  throw (.error (.malformed fault (some ((← get).positionOf found))))

/-- Takes the next token, which has to be the one asked for. -/
def expect (demand : Demand) : Parser (Option Token) := do
  let found ← peek
  if demand.accepts found then
    take
  else
    reject (.expected demand.wanted (found.map Token.text)) found

end Parser

end MiniFun
