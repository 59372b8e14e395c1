import MiniFun.Error
import MiniFun.Text.Blank
import MiniFun.Token

/-! # Scanning a text into tokens

A text is cut into pieces from left to right: words, comments and blanks. At each place the piece
is the longest one that begins there, and its length says where the next one begins. Comments and
blanks are dropped. Scanning ends with the text, or at the first character with which no piece
begins.
-/

namespace MiniFun

open Text

/-- A word of the program, or a comment with its text. -/
inductive Piece where
  | word (lexeme : Lexeme)
  | comment (text : String)
deriving DecidableEq, Repr, Inhabited

namespace Piece

def length : Piece → Nat
  | word lexeme => lexeme.text.length
  | comment text => text.length

end Piece

/-- Identifiers begin with an ASCII letter or an underscore. -/
def startsIdent (c : Char) : Bool :=
  c.isAlpha || c == '_'

/-- Identifiers go on with ASCII letters, ASCII digits, underscores and apostrophes. -/
def continuesIdent (c : Char) : Bool :=
  c.isAlphanum || c == '_' || c == '\''

/-- The word that is spelled like an identifier: reserved, or an identifier indeed. -/
def Lexeme.ofName (name : String) : Lexeme :=
  match Keyword.ofText? name with
  | some word => .keyword word
  | none => .ident name

namespace Piece

/-- The longest piece with which a text begins; `none` if no piece does. -/
def first? : List Char → Option Piece
  | [] => none
  | '-' :: '-' :: rest =>
    some (.comment (String.ofList ('-' :: '-' :: rest.takeWhile (· != '\n'))))
  | '-' :: '>' :: _ => some (.word .arrow)
  | '-' :: _ => some (.word (.operator .minus))
  | '&' :: '&' :: _ => some (.word (.operator .both))
  | '|' :: '|' :: _ => some (.word (.operator .either))
  | '=' :: '=' :: _ => some (.word (.operator .equal))
  | '=' :: _ => some (.word .equals)
  | '/' :: '=' :: _ => some (.word (.operator .notEqual))
  | '<' :: '=' :: _ => some (.word (.operator .lessEqual))
  | '<' :: _ => some (.word (.operator .less))
  | '+' :: _ => some (.word (.operator .plus))
  | '*' :: _ => some (.word (.operator .times))
  | ':' :: _ => some (.word (.operator .cons))
  | '\\' :: _ => some (.word .backslash)
  | '(' :: _ => some (.word .leftParen)
  | ')' :: _ => some (.word .rightParen)
  | '[' :: _ => some (.word .leftBracket)
  | ']' :: _ => some (.word .rightBracket)
  | ',' :: _ => some (.word .comma)
  | c :: rest =>
    if isDigit c then
      some (.word (.number (String.ofList (c :: rest.takeWhile isDigit))))
    else if startsIdent c then
      some (.word (Lexeme.ofName (String.ofList (c :: rest.takeWhile continuesIdent))))
    else
      none

end Piece

/-- The tokens of a text, and the error that cut scanning short, if any. -/
structure Scan where
  tokens : List Token
  fault : Option Error
deriving DecidableEq, Repr, Inhabited

namespace Scan

def push (token : Token) (scan : Scan) : Scan :=
  { scan with tokens := token :: scan.tokens }

/-- Scans the text that begins at the given position. The first `skip` characters belong to the
piece in front and are passed over. -/
def ofCharsFrom (position skip : Nat) : List Char → Scan
  | [] => ⟨[], none⟩
  | c :: rest =>
    match skip with
    | skip + 1 => ofCharsFrom (position + 1) skip rest
    | 0 =>
      if isBlank c then
        ofCharsFrom (position + 1) 0 rest
      else
        match Piece.first? (c :: rest) with
        | none => ⟨[], some (.malformed (.strayCharacter c) (some position))⟩
        | some piece =>
          let following := ofCharsFrom (position + 1) (piece.length - 1) rest
          match piece with
          | .comment _ => following
          | .word lexeme => following.push ⟨lexeme, position⟩

def ofString (source : String) : Scan :=
  ofCharsFrom 0 0 source.toList

end Scan

end MiniFun
