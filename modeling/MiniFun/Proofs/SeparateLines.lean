import MiniFun.Proofs.PieceScan

/-! # Lines are scanned on their own

No piece holds a line feed, so a piece that begins in front of one also ends in front of it, and the
scanner finds there what it would find if the text ended with the line. A line feed is a blank, and
the scan behind it depends on its position only in the positions that it reports. Together: the scan
of two texts with a line feed between them is the scan of the first, followed by that of the second,
moved to its place.
-/

namespace MiniFun

open Text

/-! ## Moving a scan -/

/-- An error that is found so many characters further on. Only the faults of a text have a place. -/
def Error.shift (offset : Nat) : Error → Error
  | malformed fault (some position) => malformed fault (some (position + offset))
  | error => error

def Token.shift (offset : Nat) (token : Token) : Token :=
  { token with position := token.position + offset }

namespace Scan

def shift (offset : Nat) (scan : Scan) : Scan :=
  ⟨scan.tokens.map (Token.shift offset), scan.fault.map (Error.shift offset)⟩

/-- One scan and then another. A fault ends the first one, and the second does not come to pass. -/
def followedBy (first second : Scan) : Scan :=
  match first.fault with
  | some error => ⟨first.tokens, some error⟩
  | none => ⟨first.tokens ++ second.tokens, second.fault⟩

@[simp]
theorem shift_push (offset : Nat) (token : Token) (scan : Scan) :
    (scan.push token).shift offset = (scan.shift offset).push (token.shift offset) := rfl

@[simp]
theorem followedBy_of_fault (tokens : List Token) (error : Error) (scan : Scan) :
    followedBy ⟨tokens, some error⟩ scan = ⟨tokens, some error⟩ := rfl

private theorem pushPiece_followedBy (piece : Piece) (position : Nat) (first second : Scan) :
    (first.pushPiece piece position).followedBy second =
      (first.followedBy second).pushPiece piece position := by
  rcases first with ⟨tokens, _ | error⟩ <;> cases piece <;> rfl

/-- The position only shows in the positions of the tokens and of the fault. -/
theorem ofCharsFrom_add (offset position skip : Nat) (chars : List Char) :
    ofCharsFrom (position + offset) skip chars = (ofCharsFrom position skip chars).shift offset := by
  fun_induction ofCharsFrom position skip chars with
  | case1 => rfl
  | case2 position c rest skip ih => rw [ofCharsFrom, Nat.add_right_comm, ih]
  | case3 position c rest blank ih => rw [ofCharsFrom_blank blank, Nat.add_right_comm, ih]
  | case4 position c rest visible nothing =>
    rw [ofCharsFrom_stray (by simpa using visible) nothing]
    simp [shift, Error.shift]
  | case5 position c rest visible text found following ih =>
    rw [ofCharsFrom, if_neg visible, found, Nat.add_right_comm]
    exact ih
  | case6 position c rest visible lexeme found following ih =>
    rw [ofCharsFrom, if_neg visible, found, Nat.add_right_comm]
    simp only [ih, shift_push]
    rfl

end Scan

/-! ## Pieces in front of a line feed -/

/-- Characters with which a text begins do not reach up to one that is not among them. -/
theorem prefix_append_cons_iff {chars : List Char} {c : Char} (absent : c ∉ chars)
    (line behind : List Char) : chars <+: line ++ c :: behind ↔ chars <+: line := by
  constructor
  · intro begins
    rcases List.prefix_or_prefix_of_prefix begins (List.prefix_append line (c :: behind)) with
      within | ⟨beyond, longer⟩
    · exact within
    · rw [← longer] at begins ⊢
      have begins := (List.prefix_append_right_inj line).mp begins
      rcases beyond with _ | ⟨first, beyond⟩
      · simp
      · obtain ⟨rfl, -⟩ := List.cons_prefix_cons.mp begins
        exact absurd (by simp [← longer]) absent
  · intro begins
    exact begins.trans (List.prefix_append line _)

theorem SpelledAsName.notMem {name : List Char} (spelled : SpelledAsName name) {c : Char}
    (noStart : startsIdent c = false) (noRest : continuesIdent c = false) : c ∉ name := by
  obtain ⟨first, rest, rfl, starts, continues⟩ := spelled
  intro member
  rcases List.mem_cons.mp member with rfl | later
  · exact Bool.false_ne_true (noStart.symm.trans starts)
  · exact Bool.false_ne_true (noRest.symm.trans (continues c later))

namespace Piece

private theorem Valid.newline_notMem {piece : Piece} (valid : piece.Valid) :
    '\n' ∉ piece.chars := by
  cases piece with
  | comment text =>
    obtain ⟨body, spelled, oneLine⟩ := valid
    simp [chars, spelled, oneLine]
  | word lexeme =>
    cases lexeme with
    | number digits =>
      obtain ⟨first, rest, spelled, digit, others⟩ := valid
      rw [chars, Lexeme.text, spelled]
      intro member
      rcases List.mem_cons.mp member with rfl | later
      · cases digit
      · cases others _ later
    | ident name => exact SpelledAsName.notMem valid.spelled rfl rfl
    | keyword word => exact word.spelledAsName.notMem rfl rfl
    | operator op => cases op <;> decide
    | _ => decide

/-- The scanner finds the same where the text goes on, if the same pieces begin there. -/
theorem first?_append_of_iff {text behind : List Char}
    (same : ∀ piece : Piece, piece.Valid →
      (piece.chars <+: text ++ behind ↔ piece.chars <+: text)) :
    first? (text ++ behind) = first? text := by
  cases found : first? text with
  | none =>
    rw [first?_eq_none_iff] at found ⊢
    intro piece valid begins
    exact found piece valid ((same piece valid).mp begins)
  | some piece =>
    rw [first?_eq_some_iff] at found ⊢
    obtain ⟨valid, begins, longest⟩ := found
    refine ⟨valid, (same piece valid).mpr begins, ?_⟩
    intro other alsoValid alsoBegins
    exact longest other alsoValid ((same other alsoValid).mp alsoBegins)

/-- The scanner does not look behind a line feed. -/
private theorem first?_append_newline (line behind : List Char) :
    first? (line ++ '\n' :: behind) = first? line :=
  first?_append_of_iff fun _ valid => prefix_append_cons_iff valid.newline_notMem line behind

end Piece

/-! ## Two texts with a line feed between them -/

/-- A text can be cut where no piece in front of the cut depends on what is behind it. -/
theorem Scan.ofCharsFrom_append {front back : List Char}
    (cut : ∀ text, text <:+ front → text ≠ [] → Piece.first? (text ++ back) = Piece.first? text)
    (position : Nat) :
    ofCharsFrom position 0 (front ++ back) =
      (ofCharsFrom position 0 front).followedBy (ofCharsFrom (position + front.length) 0 back) := by
  induction front using Piece.text_induction generalizing position with
  | nil => rfl
  | blank c rest blank ih =>
    have ih := ih fun text within => cut text (within.trans (List.suffix_cons c rest))
    rw [List.cons_append, ofCharsFrom_blank blank, ofCharsFrom_blank blank, ih, List.length_cons]
    congr 2
    omega
  | stray c rest visible nothing =>
    have nothing' := cut (c :: rest) List.suffix_rfl (List.cons_ne_nil c rest)
    rw [nothing, List.cons_append] at nothing'
    rw [List.cons_append, ofCharsFrom_stray visible nothing', ofCharsFrom_stray visible nothing,
      followedBy_of_fault]
  | piece piece rest found ih =>
    have ih := ih fun text within => cut text (within.trans (List.suffix_append piece.chars rest))
    have found' := cut (piece.chars ++ rest) List.suffix_rfl fun nothing => by
      rw [nothing] at found
      cases found
    rw [found, List.append_assoc] at found'
    rw [List.append_assoc, ofCharsFrom_piece found', ofCharsFrom_piece found, ih,
      pushPiece_followedBy, List.length_append, Piece.length_chars, Nat.add_assoc position]

theorem Scan.ofCharsFrom_append_newline (position : Nat) (front back : List Char) :
    ofCharsFrom position 0 (front ++ '\n' :: back) =
      (ofCharsFrom position 0 front).followedBy
        (ofCharsFrom (position + front.length + 1) 0 back) := by
  rw [ofCharsFrom_append fun text _ _ => Piece.first?_append_newline text back,
    ofCharsFrom_blank rfl]

/-- A line feed separates scans. Behind a text without a fault the second text is scanned as if it
stood alone, except for its place; a fault in the first text ends the scan as if the first text
stood alone. -/
theorem newline_separates_scans (front back : String) :
    Scan.ofString (front ++ "\n" ++ back) =
      (Scan.ofString front).followedBy ((Scan.ofString back).shift (front.length + 1)) := by
  have moved := Scan.ofCharsFrom_add (front.length + 1) 0 0 back.toList
  have scanned := Scan.ofCharsFrom_append_newline 0 front.toList back.toList
  rw [Nat.add_assoc, String.length_toList, moved] at scanned
  simpa [Scan.ofString] using scanned

end MiniFun
