import MiniFun.Proofs.WordScan

/-! # Pieces are longest matches

What a piece is can be said without the scanner: a valid word, or two hyphens with anything but line
feeds behind them. No text is spelled by two pieces. The scanner tries the marks of two characters
before those of one and goes on with digits and with the characters of names as far as they reach,
and that makes the piece at each place the longest one with which the text begins there.

A scan goes on behind each piece, so that it is followed piece by piece and not character by
character.
-/

namespace MiniFun

open Text

namespace Piece

def chars : Piece → List Char
  | word lexeme => lexeme.text.toList
  | comment text => text.toList

@[simp]
theorem length_chars (piece : Piece) : piece.chars.length = piece.length := by
  cases piece with
  | word lexeme => exact String.length_toList
  | comment text => exact String.length_toList

/-- The pieces that a text can hold: valid words, and comments on one line. -/
def Valid : Piece → Prop
  | word lexeme => lexeme.Valid
  | comment text => ∃ body, text.toList = '-' :: '-' :: body ∧ '\n' ∉ body

end Piece

/-! ## The spelling of words -/

theorem Keyword.text_of_ofText? {name : String} {word : Keyword} (found : ofText? name = some word) :
    word.text = name := by
  simpa using List.find?_some found

@[simp]
theorem Lexeme.text_ofName (name : String) : (ofName name).text = name := by
  unfold ofName
  split
  · rename_i found
    exact Keyword.text_of_ofText? found
  · rfl

/-- Reserved words and identifiers are spelled alike. -/
def SpelledAsName (chars : List Char) : Prop :=
  ∃ first rest, chars = first :: rest ∧ startsIdent first = true ∧
    ∀ c ∈ rest, continuesIdent c = true

theorem Keyword.spelledAsName (word : Keyword) : SpelledAsName word.text.toList := by
  cases word <;> exact ⟨_, _, rfl, rfl, List.all_eq_true.mp rfl⟩

theorem Keyword.ofText?_text (word : Keyword) : ofText? word.text = some word := by
  cases word <;> rfl

namespace Piece

/-! ## The piece at the front of a text -/

private theorem first?_digits {first : Char} {rest : List Char} (digit : isDigit first = true)
    (digits : ∀ c ∈ rest, isDigit c = true) (behind : List Char) :
    first? (first :: rest ++ behind) =
      some (.word (.number (String.ofList (first :: rest ++ behind.takeWhile isDigit)))) := by
  rw [List.cons_append, first?_of_not_mark (not_mark_of_isDigit digit), if_pos digit,
    List.takeWhile_append_of_pos digits, List.cons_append]

private theorem first?_name {name : List Char} (spelled : SpelledAsName name) (behind : List Char) :
    first? (name ++ behind) = some (.word (Lexeme.ofName
      (String.ofList (name ++ behind.takeWhile continuesIdent)))) := by
  obtain ⟨first, rest, rfl, starts, continues⟩ := spelled
  rw [List.cons_append, first?_of_not_mark (not_mark_of_startsIdent starts),
    if_neg (by simp [not_isDigit_of_startsIdent starts]), if_pos starts,
    List.takeWhile_append_of_pos continues, List.cons_append]

private theorem first?_comment {body : List Char} (oneLine : '\n' ∉ body) (behind : List Char) :
    first? ('-' :: '-' :: body ++ behind) = some (.comment (String.ofList
      ('-' :: '-' :: body ++ behind.takeWhile (· != '\n')))) := by
  have inside : ∀ c ∈ body, (c != '\n') = true := by
    intro c member
    simp only [bne_iff_ne, ne_eq]
    rintro rfl
    exact oneLine member
  simp only [List.cons_append, first?, List.takeWhile_append_of_pos inside]

theorem valid_of_first? {chars : List Char} {piece : Piece} (found : first? chars = some piece) :
    piece.Valid := by
  cases piece with
  | word lexeme => exact first?_valid found
  | comment text =>
    unfold first? at found
    split at found
    case h_2 rest =>
      cases found
      refine ⟨rest.takeWhile (· != '\n'), String.toList_ofList, fun member => ?_⟩
      have other := List.all_eq_true.mp List.all_takeWhile _ member
      simp at other
    case h_21 =>
      split at found
      · cases found
      · split at found <;> cases found
    all_goals cases found

/-- The scanner takes its piece from the front of the text. -/
theorem chars_prefix_of_first? {chars : List Char} {piece : Piece}
    (found : first? chars = some piece) : piece.chars <+: chars := by
  unfold first? at found
  split at found
  case h_2 rest =>
    cases found
    simp [Piece.chars, List.takeWhile_prefix]
  case h_21 c rest _ _ _ _ _ _ _ _ _ _ _ _ _ _ _ _ _ _ _ =>
    split at found
    · cases found
      simp [Piece.chars, Lexeme.text, List.takeWhile_prefix]
    · split at found
      · cases found
        simp [Piece.chars, List.takeWhile_prefix]
      · cases found
  all_goals cases found <;> exact ⟨_, rfl⟩

/-- A hyphen, an equals sign and a less-than sign are pieces, unless they begin longer ones. -/
private theorem isSome_first?_of_mark {c : Char} (mark : c ∈ ['-', '=', '<']) (behind : List Char) :
    (first? (c :: behind)).isSome = true := by
  simp only [List.mem_cons, List.not_mem_nil, or_false] at mark
  rcases behind with _ | ⟨next, rest⟩
  · rcases mark with rfl | rfl | rfl <;> rfl
  · by_cases longer : next = '-' ∨ next = '>' ∨ next = '='
    · rcases longer with rfl | rfl | rfl <;> rcases mark with rfl | rfl | rfl <;> rfl
    · simp only [not_or] at longer
      rcases mark with rfl | rfl | rfl <;> simp [first?, longer]

theorem Valid.length_pos {piece : Piece} (valid : piece.Valid) : 0 < piece.length := by
  rw [← length_chars]
  cases piece with
  | comment text =>
    obtain ⟨body, spelled, -⟩ := valid
    simp [chars, spelled]
  | word lexeme =>
    cases lexeme with
    | number digits =>
      obtain ⟨first, rest, spelled, -⟩ := valid
      simp [chars, Lexeme.text, spelled]
    | ident name =>
      obtain ⟨⟨first, rest, spelled, -⟩, -⟩ := valid
      simp [chars, Lexeme.text, spelled]
    | keyword word => cases word <;> decide
    | operator op => cases op <;> decide
    | _ => decide

/-- A text that begins with a valid piece begins with a piece for the scanner, which is at least as
long. -/
private theorem exists_first?_of_chars {piece : Piece} (valid : piece.Valid) (behind : List Char) :
    ∃ longest, first? (piece.chars ++ behind) = some longest ∧ piece.length ≤ longest.length := by
  have named {name : List Char} (spelled : SpelledAsName name) :
      ∃ longest, first? (name ++ behind) = some longest ∧ name.length ≤ longest.length := by
    refine ⟨_, first?_name spelled behind, ?_⟩
    rw [← length_chars]
    simp [chars]
  have single {c : Char} (mark : c ∈ ['-', '=', '<']) :
      ∃ longest, first? (c :: behind) = some longest ∧ 1 ≤ longest.length := by
    obtain ⟨longest, found⟩ := Option.isSome_iff_exists.mp (isSome_first?_of_mark mark behind)
    exact ⟨longest, found, (valid_of_first? found).length_pos⟩
  rw [← length_chars]
  cases piece with
  | comment text =>
    obtain ⟨body, spelled, oneLine⟩ := valid
    rw [chars, spelled]
    refine ⟨_, first?_comment oneLine behind, ?_⟩
    rw [← length_chars]
    simp [chars]
  | word lexeme =>
    cases lexeme with
    | number digits =>
      obtain ⟨first, rest, spelled, digit, others⟩ := valid
      rw [chars, Lexeme.text, spelled]
      refine ⟨_, first?_digits digit others behind, ?_⟩
      rw [← length_chars]
      simp [chars, Lexeme.text]
    | ident name => exact named valid.spelled
    | keyword word => exact named word.spelledAsName
    | equals => exact single (by decide)
    | operator op =>
      cases op with
      | minus | less => exact single (by decide)
      | _ => exact ⟨_, rfl, by decide⟩
    | _ => exact ⟨_, rfl, by decide⟩

/-- No text is spelled by two pieces, and the scanner knows the piece that spells it. -/
theorem first?_chars {piece : Piece} (valid : piece.Valid) : first? piece.chars = some piece := by
  cases piece with
  | comment text =>
    obtain ⟨body, spelled, oneLine⟩ := valid
    have found := first?_comment oneLine []
    rw [List.takeWhile_nil, List.append_nil, ← spelled, String.ofList_toList] at found
    exact found
  | word lexeme =>
    cases lexeme with
    | number digits =>
      obtain ⟨first, rest, spelled, digit, others⟩ := valid
      have found := first?_digits digit others []
      rw [List.takeWhile_nil, List.append_nil, ← spelled, String.ofList_toList] at found
      exact found
    | ident name =>
      have found := first?_name valid.spelled []
      rw [List.takeWhile_nil, List.append_nil, String.ofList_toList, Lexeme.ofName,
        valid.free] at found
      exact found
    | keyword word =>
      have found := first?_name word.spelledAsName []
      rw [List.takeWhile_nil, List.append_nil, String.ofList_toList, Lexeme.ofName,
        word.ofText?_text] at found
      exact found
    | operator op => cases op <;> rfl
    | _ => rfl

theorem Valid.eq_of_chars_eq {first second : Piece} (valid : first.Valid)
    (alsoValid : second.Valid) (same : first.chars = second.chars) : first = second := by
  have found := first?_chars valid
  rw [same, first?_chars alsoValid] at found
  exact (Option.some.inj found).symm

/-- The piece that the scanner finds is the longest valid one with which the text begins. -/
theorem first?_eq_some_iff {text : List Char} {piece : Piece} :
    first? text = some piece ↔ piece.Valid ∧ piece.chars <+: text ∧
      ∀ other : Piece, other.Valid → other.chars <+: text → other.length ≤ piece.length := by
  have longest {found : Piece} (known : first? text = some found) {other : Piece}
      (valid : other.Valid) (begins : other.chars <+: text) : other.length ≤ found.length := by
    obtain ⟨behind, rfl⟩ := begins
    obtain ⟨found', again, longer⟩ := exists_first?_of_chars valid behind
    obtain rfl := Option.some.inj (known.symm.trans again)
    exact longer
  constructor
  · intro found
    exact ⟨valid_of_first? found, chars_prefix_of_first? found,
      fun other valid begins => longest found valid begins⟩
  · rintro ⟨valid, begins, maximal⟩
    obtain ⟨found, known, -⟩ : ∃ found, first? text = some found ∧ piece.length ≤ found.length := by
      obtain ⟨behind, rfl⟩ := begins
      exact exists_first?_of_chars valid behind
    have alsoValid := valid_of_first? known
    have alsoBegins := chars_prefix_of_first? known
    have shorter : piece.chars.length ≤ found.chars.length := by
      simpa using longest known valid begins
    have longer : found.chars.length ≤ piece.chars.length := by
      simpa using maximal found alsoValid alsoBegins
    have same : piece.chars = found.chars :=
      (List.prefix_of_prefix_length_le begins alsoBegins shorter).eq_of_length_le longer
    rw [known, valid.eq_of_chars_eq alsoValid same]

/-- The scanner finds nothing exactly where no valid piece begins. -/
theorem first?_eq_none_iff {text : List Char} :
    first? text = none ↔ ∀ piece : Piece, piece.Valid → ¬ piece.chars <+: text := by
  constructor
  · rintro nothing piece valid ⟨behind, rfl⟩
    obtain ⟨longest, found, -⟩ := exists_first?_of_chars valid behind
    simp [found] at nothing
  · intro nothing
    cases known : first? text with
    | none => rfl
    | some piece =>
      exact (nothing piece (valid_of_first? known) (chars_prefix_of_first? known)).elim

/-- No piece begins with a blank. -/
theorem first?_of_isBlank {c : Char} (blank : isBlank c = true) (rest : List Char) :
    first? (c :: rest) = none := by
  have plain : c ∉ marks := by
    intro mark
    have visible : (marks.all fun mark => !isBlank mark) = true := by decide
    simpa [blank] using List.all_eq_true.mp visible c mark
  have noDigit : ¬ isDigit c = true := fun digit => by simp [not_isBlank_of_isDigit digit] at blank
  have noName : ¬ startsIdent c = true := fun starts => by
    simp [not_isBlank_of_startsIdent starts] at blank
  rw [first?_of_not_mark plain, if_neg noDigit, if_neg noName]

/-- Induction on a text as it is scanned: blanks and pieces are taken from its front, up to a
character that is neither. -/
theorem text_induction {motive : List Char → Prop} (nil : motive [])
    (blank : ∀ c rest, isBlank c = true → motive rest → motive (c :: rest))
    (stray : ∀ c rest, isBlank c = false → first? (c :: rest) = none → motive (c :: rest))
    (piece : ∀ (piece : Piece) rest, first? (piece.chars ++ rest) = some piece → motive rest →
      motive (piece.chars ++ rest))
    (text : List Char) : motive text := by
  induction size : text.length using Nat.strongRecOn generalizing text with
  | ind n ih =>
    subst size
    rcases text with _ | ⟨c, rest⟩
    · exact nil
    · cases isBlank? : isBlank c with
      | true => exact blank c rest isBlank? (ih _ (by simp) rest rfl)
      | false =>
        cases found : first? (c :: rest) with
        | none => exact stray c rest isBlank? found
        | some front =>
          obtain ⟨behind, split⟩ := chars_prefix_of_first? found
          rw [← split] at found ⊢
          have positive := (valid_of_first? found).length_pos
          have shorter : behind.length < (c :: rest).length := by
            simp only [← split, List.length_append, length_chars]
            omega
          exact piece front behind found (ih _ shorter behind rfl)

end Piece

/-! ## Scanning piece by piece -/

namespace Scan

theorem ofCharsFrom_blank {c : Char} (blank : isBlank c = true) (position : Nat)
    (rest : List Char) : ofCharsFrom position 0 (c :: rest) = ofCharsFrom (position + 1) 0 rest := by
  rw [ofCharsFrom, if_pos blank]

theorem ofCharsFrom_stray {c : Char} {rest : List Char} (visible : isBlank c = false)
    (nothing : Piece.first? (c :: rest) = none) (position : Nat) :
    ofCharsFrom position 0 (c :: rest) =
      ⟨[], some (.malformed (.strayCharacter c) (some position))⟩ := by
  simp [ofCharsFrom, visible, nothing]

/-- A scan with the token of a piece in front. A comment makes no token. -/
def pushPiece (piece : Piece) (position : Nat) (scan : Scan) : Scan :=
  match piece with
  | .comment _ => scan
  | .word lexeme => scan.push ⟨lexeme, position⟩

theorem ofCharsFrom_piece {piece : Piece} {rest : List Char}
    (found : Piece.first? (piece.chars ++ rest) = some piece) (position : Nat) :
    ofCharsFrom position 0 (piece.chars ++ rest) =
      (ofCharsFrom (position + piece.length) 0 rest).pushPiece piece position := by
  have length := piece.length_chars
  cases spelled : piece.chars with
  | nil =>
    have positive := (Piece.valid_of_first? found).length_pos
    simp only [spelled, List.length_nil] at length
    omega
  | cons c body =>
    rw [spelled, List.cons_append] at found
    have visible : isBlank c = false := by
      cases isBlank? : isBlank c with
      | false => rfl
      | true => simp [Piece.first?_of_isBlank isBlank?] at found
    have skipped : ofCharsFrom (position + 1) (piece.length - 1) (body ++ rest) =
        ofCharsFrom (position + piece.length) 0 rest := by
      simp only [spelled, List.length_cons] at length
      rw [show piece.length - 1 = body.length by omega, ofCharsFrom_skip]
      congr 1
      omega
    rw [List.cons_append, ofCharsFrom, if_neg (by simp [visible]), found]
    cases piece with
    | comment text => exact skipped
    | word lexeme => exact congrArg (push ⟨lexeme, position⟩) skipped

end Scan

end MiniFun
