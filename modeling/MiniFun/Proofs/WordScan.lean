import MiniFun.Token.Scan

/-! # Scanning words one after the other

A scan cuts the longest piece at each place, so what it makes of a text depends on the characters
behind it. `Reads` says that given characters are read as given words in front of given others; the
positions of the tokens are left open, since no phrase depends on them. Words that end before the
characters behind them are read one by one, and blanks between them are read as nothing.
-/

namespace MiniFun

open Text

/-- The texts that are identifiers: spelled like one and not reserved. -/
structure IsName (name : String) : Prop where
  spelled : ∃ first rest, name.toList = first :: rest ∧ startsIdent first = true ∧
    ∀ c ∈ rest, continuesIdent c = true
  free : Keyword.ofText? name = none

/-- The words that a text can hold. -/
def Lexeme.Valid : Lexeme → Prop
  | .number digits => ∃ first rest, digits.toList = first :: rest ∧ isDigit first = true ∧
      ∀ c ∈ rest, isDigit c = true
  | .ident name => IsName name
  | _ => True

/-! ## Every scanned word is valid -/

theorem Lexeme.ofName_valid {first : Char} {rest : List Char} (starts : startsIdent first = true)
    (continues : ∀ c ∈ rest, continuesIdent c = true) :
    (Lexeme.ofName (String.ofList (first :: rest))).Valid := by
  unfold ofName
  split
  · trivial
  · rename_i free
    exact ⟨⟨first, rest, String.toList_ofList, starts, continues⟩, free⟩

theorem Piece.first?_valid {chars : List Char} {lexeme : Lexeme}
    (found : first? chars = some (.word lexeme)) : lexeme.Valid := by
  unfold first? at found
  split at found
  case h_21 c rest _ _ _ _ _ _ _ _ _ _ _ _ _ _ _ _ _ _ _ =>
    split at found
    · rename_i digit
      cases found
      exact ⟨c, rest.takeWhile isDigit, String.toList_ofList, digit,
        List.all_eq_true.mp List.all_takeWhile⟩
    · split at found
      · rename_i starts
        cases found
        exact Lexeme.ofName_valid starts (List.all_eq_true.mp List.all_takeWhile)
      · cases found
  all_goals cases found <;> trivial

theorem Scan.valid_of_mem {position skip : Nat} {chars : List Char} {token : Token}
    (member : token ∈ (ofCharsFrom position skip chars).tokens) : token.lexeme.Valid := by
  fun_induction ofCharsFrom position skip chars with
  | case1 => cases member
  | case2 _ _ _ _ ih | case3 _ _ _ _ ih | case5 _ _ _ _ _ _ _ ih => exact ih member
  | case4 => cases member
  | case6 position c rest _ lexeme found following ih =>
    obtain rfl | behind := List.mem_cons.mp member
    · exact Piece.first?_valid found
    · exact ih behind

/-! ## Reading words in front of other characters -/

namespace Scan

def words (scan : Scan) : List Lexeme :=
  scan.tokens.map Token.lexeme

/-- Passing over the characters of a piece. -/
theorem ofCharsFrom_skip (chars rest : List Char) (position : Nat) :
    ofCharsFrom position chars.length (chars ++ rest) =
      ofCharsFrom (position + chars.length) 0 rest := by
  induction chars generalizing position with
  | nil => rfl
  | cons c chars ih =>
    rw [List.cons_append, List.length_cons, ofCharsFrom, ih]
    congr 1
    omega

end Scan

/-- The characters are read as the words wherever the others follow. -/
def Reads (chars rest : List Char) (words : List Lexeme) : Prop :=
  ∀ position,
    (Scan.ofCharsFrom position 0 (chars ++ rest)).words =
      words ++ (Scan.ofCharsFrom (position + chars.length) 0 rest).words ∧
    (Scan.ofCharsFrom position 0 (chars ++ rest)).fault =
      (Scan.ofCharsFrom (position + chars.length) 0 rest).fault

namespace Reads

theorem append {front back rest : List Char} {first second : List Lexeme}
    (before : Reads front (back ++ rest) first) (after : Reads back rest second) :
    Reads (front ++ back) rest (first ++ second) := by
  intro position
  have shift : position + (front ++ back).length = position + front.length + back.length := by
    rw [List.length_append, Nat.add_assoc]
  rw [List.append_assoc, shift, (before position).1, (before position).2,
    (after (position + front.length)).1, (after (position + front.length)).2, List.append_assoc]
  exact ⟨rfl, rfl⟩

theorem blank {c : Char} (isBlank : isBlank c = true) (rest : List Char) : Reads [c] rest [] := by
  intro position
  rw [List.singleton_append, Scan.ofCharsFrom, if_pos isBlank]
  exact ⟨rfl, rfl⟩

/-- A word is read if it is the longest piece with which the text begins. -/
theorem word {word : Lexeme} {c : Char} {chars rest : List Char}
    (spelled : word.text.toList = c :: chars) (visible : isBlank c = false)
    (longest : Piece.first? (c :: (chars ++ rest)) = some (.word word)) :
    Reads (c :: chars) rest [word] := by
  intro position
  have length : (Piece.word word).length - 1 = chars.length := by
    rw [Piece.length, ← String.length_toList, spelled, List.length_cons, Nat.add_sub_cancel]
  have scanned : Scan.ofCharsFrom position 0 (c :: chars ++ rest) =
      (Scan.ofCharsFrom (position + (c :: chars).length) 0 rest).push ⟨word, position⟩ := by
    rw [List.cons_append, Scan.ofCharsFrom, if_neg (by rw [visible]; nofun), longest]
    simp only [length, Scan.ofCharsFrom_skip, List.length_cons]
    congr 2
    omega
  rw [scanned]
  exact ⟨rfl, rfl⟩

/-- A whole text is read to its end. -/
theorem ofString {text : String} {words : List Lexeme} (reads : Reads text.toList [] words) :
    (Scan.ofString text).words = words ∧ (Scan.ofString text).fault = none := by
  have scanned := reads 0
  rw [List.append_nil] at scanned
  exact ⟨scanned.1.trans (List.append_nil _), scanned.2⟩

end Reads

/-! ## Words that end before the characters behind them -/

/-- The characters with which operators, punctuation marks and comments begin. -/
def marks : List Char :=
  ['-', '&', '|', '=', '/', '<', '+', '*', ':', '\\', '(', ')', '[', ']', ',']

/-- A text that begins with no mark begins with a numeral, with a name, or with no piece. -/
theorem Piece.first?_of_not_mark {c : Char} (plain : c ∉ marks) (rest : List Char) :
    first? (c :: rest) =
      if isDigit c then
        some (.word (.number (String.ofList (c :: rest.takeWhile isDigit))))
      else if startsIdent c then
        some (.word (Lexeme.ofName (String.ofList (c :: rest.takeWhile continuesIdent))))
      else
        none := by
  rw [first?]
  all_goals first
    | rintro rfl; exact plain (by decide)
    | rintro _ rfl; exact fun _ => plain (by decide)

theorem not_mark_of_isDigit {c : Char} (digit : isDigit c = true) : c ∉ marks := by
  intro mark
  have none : (marks.all fun mark => !isDigit mark) = true := by decide
  have other := List.all_eq_true.mp none c mark
  rw [digit] at other
  cases other

theorem not_mark_of_startsIdent {c : Char} (starts : startsIdent c = true) : c ∉ marks := by
  intro mark
  have none : (marks.all fun mark => !startsIdent mark) = true := by decide
  have other := List.all_eq_true.mp none c mark
  rw [starts] at other
  cases other

private theorem toNat_of_startsIdent {c : Char} (starts : startsIdent c = true) :
    65 ≤ c.toNat ∧ c.toNat < 123 := by
  rw [startsIdent] at starts
  delta Char.isAlpha Char.isUpper Char.isLower at starts
  simp only [Bool.or_eq_true, Bool.and_eq_true, decide_eq_true_eq, beq_iff_eq] at starts
  obtain (⟨low, high⟩ | ⟨low, high⟩) | rfl := starts
  · have low : 65 ≤ c.toNat := low
    have high : c.toNat ≤ 90 := high
    omega
  · have low : 97 ≤ c.toNat := low
    have high : c.toNat ≤ 122 := high
    omega
  · decide

/-- No letter is a digit of any script. -/
theorem not_isDigit_of_startsIdent {c : Char} (starts : startsIdent c = true) :
    isDigit c = false := by
  have letter := toNat_of_startsIdent starts
  have apart : ∀ start ∈ digitZeros, start + 10 ≤ 65 ∨ 123 ≤ start := by decide
  have none : digitZeros.find? (fun start => start ≤ c.toNat && c.toNat < start + 10) = none := by
    rw [List.find?_eq_none]
    intro start member range
    simp only [Bool.and_eq_true, decide_eq_true_eq] at range
    have := apart start member
    omega
  rw [isDigit, digitValue?, none]
  rfl

theorem not_isBlank_of_startsIdent {c : Char} (starts : startsIdent c = true) :
    isBlank c = false := by
  have letter := toNat_of_startsIdent starts
  have none : ∀ code < 123, 65 ≤ code → isBlank (Char.ofNat code) = false := by decide
  have visible := none c.toNat letter.2 letter.1
  rw [Char.ofNat_toNat] at visible
  exact visible

theorem not_isBlank_of_isDigit {c : Char} (digit : isDigit c = true) : isBlank c = false := by
  have none : ∀ start ∈ digitZeros, ∀ offset < 10, isBlank (Char.ofNat (start + offset)) = false := by
    decide
  obtain ⟨value, known⟩ := Option.isSome_iff_exists.mp digit
  obtain ⟨start, found, rfl⟩ := Option.map_eq_some_iff.mp known
  have range := List.find?_some found
  simp only [Bool.and_eq_true, decide_eq_true_eq] at range
  have visible := none start (List.mem_of_find?_eq_some found) (c.toNat - start) (by omega)
  rw [Nat.add_sub_cancel' range.1, Char.ofNat_toNat] at visible
  exact visible

/-- Whether every word in front of the character ends there. -/
def endsWord (c : Char) : Bool :=
  !isDigit c && !continuesIdent c && c != '-' && c != '>' && c != '='

/-- No word in front of the characters goes on with the first of them. -/
def Separates (rest : List Char) : Prop :=
  ∀ c, rest.head? = some c → endsWord c = true

theorem Separates.nil : Separates [] := nofun

theorem Separates.cons {c : Char} (ends : endsWord c = true) (rest : List Char) :
    Separates (c :: rest) := by
  intro first same
  obtain rfl := Option.some.inj same
  exact ends

private theorem Separates.takeWhile_eq_nil {rest : List Char} (separate : Separates rest)
    {test : Char → Bool} (stops : ∀ c, endsWord c = true → test c = false) :
    rest.takeWhile test = [] := by
  cases rest with
  | nil => rfl
  | cons c rest => simp [stops c (separate c rfl)]

private theorem not_isDigit_of_endsWord (c : Char) (ends : endsWord c = true) :
    isDigit c = false := by
  simp only [endsWord, Bool.and_eq_true, Bool.not_eq_true'] at ends
  exact ends.1.1.1.1

private theorem not_continuesIdent_of_endsWord (c : Char) (ends : endsWord c = true) :
    continuesIdent c = false := by
  simp only [endsWord, Bool.and_eq_true, Bool.not_eq_true'] at ends
  exact ends.1.1.1.2

/-- The characters are read as the words in front of whatever does not go on with the last of
them. -/
def Spells (chars : List Char) (words : List Lexeme) : Prop :=
  ∀ rest, Separates rest → Reads chars rest words

namespace Spells

theorem number {digits : String} (valid : (Lexeme.number digits).Valid) :
    Spells digits.toList [.number digits] := by
  intro rest separate
  obtain ⟨first, others, spelled, digit, digits'⟩ := valid
  rw [spelled]
  refine .word spelled (not_isBlank_of_isDigit digit) ?_
  rw [Piece.first?_of_not_mark (not_mark_of_isDigit digit), if_pos digit,
    List.takeWhile_append_of_pos digits', separate.takeWhile_eq_nil not_isDigit_of_endsWord,
    List.append_nil, ← spelled, String.ofList_toList]

/-- Reserved words and identifiers are told apart once they are complete. -/
theorem name (word : Lexeme) (spelled : ∃ first rest, word.text.toList = first :: rest ∧
      startsIdent first = true ∧ ∀ c ∈ rest, continuesIdent c = true)
    (known : Lexeme.ofName word.text = word) : Spells word.text.toList [word] := by
  intro rest separate
  obtain ⟨first, others, spelled, starts, continues⟩ := spelled
  rw [spelled]
  refine .word spelled (not_isBlank_of_startsIdent starts) ?_
  rw [Piece.first?_of_not_mark (not_mark_of_startsIdent starts),
    if_neg (by rw [not_isDigit_of_startsIdent starts]; nofun), if_pos starts,
    List.takeWhile_append_of_pos continues,
    separate.takeWhile_eq_nil not_continuesIdent_of_endsWord, List.append_nil, ← spelled,
    String.ofList_toList, known]

theorem ident {name : String} (isName : IsName name) : Spells name.toList [.ident name] := by
  refine .name (.ident name) isName.spelled ?_
  rw [Lexeme.text, Lexeme.ofName, isName.free]

theorem keyword (word : Keyword) : Spells word.text.toList [.keyword word] := by
  refine .name (.keyword word) ?_ (by cases word <;> rfl)
  cases word <;> exact ⟨_, _, rfl, rfl, List.all_eq_true.mp rfl⟩

theorem operator (op : Operator) : Spells op.symbol.toList [.operator op] := by
  intro rest separate
  cases op with
  | minus =>
    change Reads ['-'] rest _
    refine .word rfl rfl ?_
    rw [List.nil_append, Piece.first?]
    · rintro tail rfl
      cases separate '-' rfl
    · rintro tail rfl
      cases separate '>' rfl
  | less =>
    change Reads ['<'] rest _
    refine .word rfl rfl ?_
    rw [List.nil_append, Piece.first?]
    rintro tail rfl
    cases separate '=' rfl
  | _ => exact .word rfl rfl rfl

theorem equals : Spells ['='] [.equals] := by
  intro rest separate
  refine .word rfl rfl ?_
  rw [List.nil_append, Piece.first?]
  rintro tail rfl
  cases separate '=' rfl

theorem arrow : Spells ['-', '>'] [.arrow] := fun _ _ => .word rfl rfl rfl

theorem brackets : Spells ['[', ']'] [.leftBracket, .rightBracket] := by
  intro rest _
  have opening : Reads ['['] (']' :: rest) [.leftBracket] := .word rfl rfl rfl
  have closing : Reads [']'] rest [.rightBracket] := .word rfl rfl rfl
  exact .append opening closing

/-- A blank ends the words in front of it. -/
theorem space {front back : List Char} {first second : List Lexeme} (before : Spells front first)
    (after : Spells back second) : Spells (front ++ ' ' :: back) (first ++ second) := by
  intro rest separate
  exact .append (before _ (.cons rfl _)) (.append (.blank rfl _) (after rest separate))

theorem backslash {chars : List Char} {words : List Lexeme} (spelled : Spells chars words) :
    Spells ('\\' :: chars) (.backslash :: words) := by
  intro rest separate
  have mark : Reads ['\\'] (chars ++ rest) [.backslash] := .word rfl rfl rfl
  exact .append mark (spelled rest separate)

/-- A closing parenthesis ends the words in front of it, and what follows it is not looked at. -/
theorem parentheses {inner : List Char} {words : List Lexeme} (spelled : Spells inner words) :
    Spells ('(' :: (inner ++ [')'])) (.leftParen :: (words ++ [.rightParen])) := by
  intro rest _
  have opening : Reads ['('] (inner ++ [')'] ++ rest) [.leftParen] := .word rfl rfl rfl
  have closing : Reads [')'] rest [.rightParen] := .word rfl rfl rfl
  exact .append opening (.append (spelled _ (.cons rfl _)) closing)

end Spells

end MiniFun
