import MiniFun.Proofs.PieceScan

/-! # Tokens and the stretches between them

The tokens of a text and what lies between them are the whole text up to the place where scanning
ended. Each token is the longest piece at its place. The stretches in front of the first token,
between two tokens and behind the last one hold blanks and comments only. Scanning ended with the
text, or at a character that is no blank and with which no piece begins.
-/

namespace MiniFun

open Text

/-- Blanks and comments, in front of the given characters. A comment ends with its line. -/
inductive Gap : List Char → List Char → Prop
  | nil (behind : List Char) : Gap [] behind
  | blank {c : Char} {stretch behind : List Char} (blank : isBlank c = true) :
      Gap stretch behind → Gap (c :: stretch) behind
  | comment {text : String} {stretch behind : List Char} (valid : (Piece.comment text).Valid)
      (ended : ∀ c, (stretch ++ behind).head? = some c → c = '\n') :
      Gap stretch behind → Gap (text.toList ++ stretch) behind

namespace Token

def stop (token : Token) : Nat := token.position + token.text.length

/-- Where the stretches around the tokens begin and end, from the start to the end of the last
one. -/
def stretches (start : Nat) : List Token → Nat → List (Nat × Nat)
  | [], last => [(start, last)]
  | token :: rest, last => (start, token.position) :: stretches token.stop rest last

/-- Only the first stretch depends on the start. -/
private theorem forall_stretches_from {good : Nat × Nat → Prop} {start later last : Nat}
    {tokens : List Token} (all : ∀ stretch ∈ stretches later tokens last, good stretch)
    (widened : ∀ place, good (later, place) → good (start, place)) :
    ∀ stretch ∈ stretches start tokens last, good stretch := by
  cases tokens with
  | nil => simpa [stretches] using widened last (by simpa [stretches] using all)
  | cons token rest =>
    rw [stretches, List.forall_mem_cons] at all ⊢
    exact ⟨widened _ all.1, all.2⟩

/-- Tokens with stretches between them do not overlap. -/
private theorem ordered_of_stretches {start last : Nat} {tokens : List Token}
    (forward : ∀ stretch ∈ stretches start tokens last, stretch.1 ≤ stretch.2) :
    (∀ token ∈ tokens, start ≤ token.position) ∧
      tokens.Pairwise fun first second => first.stop ≤ second.position := by
  induction tokens generalizing start with
  | nil => simp
  | cons token rest ih =>
    rw [stretches, List.forall_mem_cons] at forward
    obtain ⟨behind, ordered⟩ := ih forward.2
    have grows : token.position ≤ token.stop := Nat.le_add_right ..
    constructor
    · intro other member
      rcases List.mem_cons.mp member with rfl | later
      · exact forward.1
      · have := behind other later
        have := forward.1
        omega
    · exact List.pairwise_cons.mpr ⟨behind, ordered⟩

/-- The text of a token is spelled by no other word. -/
theorem lexeme_eq {token : Token} {lexeme : Lexeme} (valid : token.lexeme.Valid)
    (alsoValid : lexeme.Valid) (same : lexeme.text = token.text) : lexeme = token.lexeme := by
  have chars : (Piece.word lexeme).chars = (Piece.word token.lexeme).chars :=
    congrArg String.toList same
  exact Piece.word.inj (Piece.Valid.eq_of_chars_eq alsoValid valid chars)

private theorem kind_eq_keyword_iff {token : Token} (valid : token.lexeme.Valid) :
    token.kind = .keyword ↔ ∃ word : Keyword, word.text = token.text := by
  constructor
  · intro keyword
    rcases token with ⟨lexeme, position⟩
    cases lexeme with
    | keyword word => exact ⟨word, rfl⟩
    | _ => cases keyword
  · rintro ⟨word, same⟩
    have reserved : (Lexeme.keyword word).Valid := trivial
    rw [kind, ← lexeme_eq valid reserved same, Lexeme.kind]

end Token

/-! ## Places in a text -/

section

variable {whole front rest : List Char} {start : Nat} (split : whole.drop start = front ++ rest)
include split

private theorem drop_behind : whole.drop (start + front.length) = rest := by
  rw [← List.drop_drop, split, List.drop_left]

private theorem extract_append {place : Nat} (later : start + front.length ≤ place) :
    whole.extract start place = front ++ whole.extract (start + front.length) place := by
  have behind := drop_behind split
  simp only [List.extract_eq_take_drop, split, behind, List.take_append]
  rw [List.take_of_length_le (by omega)]
  congr 2
  omega

end

private theorem extract_append_drop {whole : List Char} {start place : Nat}
    (later : start ≤ place) :
    whole.extract start place ++ whole.drop place = whole.drop start := by
  obtain ⟨count, rfl⟩ := Nat.exists_eq_add_of_le later
  rw [List.extract_eq_take_drop, Nat.add_sub_cancel_left, ← List.drop_drop]
  exact List.take_append_drop count (whole.drop start)

def IsGap (whole : List Char) (stretch : Nat × Nat) : Prop :=
  stretch.1 ≤ stretch.2 ∧ Gap (whole.extract stretch.1 stretch.2) (whole.drop stretch.2)

namespace IsGap

variable {whole rest : List Char} {start place : Nat}

theorem self (whole : List Char) (place : Nat) : IsGap whole (place, place) := by
  refine ⟨Nat.le_refl place, ?_⟩
  simpa using Gap.nil (whole.drop place)

theorem blank {c : Char} (blank : isBlank c = true) (split : whole.drop start = c :: rest)
    (gap : IsGap whole (start + 1, place)) : IsGap whole (start, place) := by
  obtain ⟨later, gap⟩ := gap
  have split : whole.drop start = [c] ++ rest := split
  refine ⟨Nat.le_of_succ_le later, ?_⟩
  rw [extract_append split later]
  exact .blank blank gap

/-- A comment that the scanner has found goes on to the end of its line. -/
theorem comment {text : String} (split : whole.drop start = text.toList ++ rest)
    (found : Piece.first? (text.toList ++ rest) = some (.comment text))
    (gap : IsGap whole (start + text.length, place)) : IsGap whole (start, place) := by
  obtain ⟨later, gap⟩ := gap
  rw [← String.length_toList] at later gap
  refine ⟨by omega, ?_⟩
  obtain ⟨valid, -, longest⟩ := Piece.first?_eq_some_iff.mp found
  rw [extract_append split later]
  refine .comment valid (fun c ahead => ?_) gap
  rw [extract_append_drop later, drop_behind split] at ahead
  obtain ⟨behind, rfl⟩ := List.head?_eq_some_iff.mp ahead
  -- If the line went on with the character, the comment could be longer.
  refine Decidable.byContradiction fun other => ?_
  obtain ⟨body, spelled, oneLine⟩ := valid
  have longer : (Piece.comment (text.push c)).Valid :=
    ⟨body ++ [c], by simp [spelled], by simp [oneLine, Ne.symm other]⟩
  have begins : (Piece.comment (text.push c)).chars <+: text.toList ++ c :: behind :=
    ⟨behind, by simp [Piece.chars]⟩
  have := longest _ longer begins
  simp only [Piece.length, String.length_push] at this
  omega

end IsGap

/-! ## The text from a place on -/

/-- What the scan of the text from the start on says about the whole text. -/
structure Scan.Tiles (whole : List Char) (start : Nat) (scan : Scan) (last : Nat) : Prop where
  longest : ∀ token ∈ scan.tokens,
    Piece.first? (whole.drop token.position) = some (.word token.lexeme)
  gaps : ∀ stretch ∈ Token.stretches start scan.tokens last, IsGap whole stretch
  ended : scan.fault = none ∧ last = whole.length ∨
    ∃ c rest, scan.fault = some (.malformed (.strayCharacter c) (some last)) ∧
      whole.drop last = c :: rest ∧ isBlank c = false ∧ Piece.first? (c :: rest) = none

namespace Scan

theorem tiles_ofCharsFrom {whole text : List Char} {start : Nat} (split : whole.drop start = text)
    (bounded : start ≤ whole.length) :
    ∃ last, (ofCharsFrom start 0 text).Tiles whole start last := by
  induction text using Piece.text_induction generalizing start with
  | nil =>
    have atEnd : start = whole.length := by
      have := congrArg List.length split
      simp only [List.length_drop, List.length_nil] at this
      omega
    refine ⟨start, List.forall_mem_nil _, ?_, .inl ⟨rfl, atEnd⟩⟩
    exact List.forall_mem_singleton.mpr (.self whole start)
  | blank c rest blank ih =>
    have bounded : start + 1 ≤ whole.length := by
      have := congrArg List.length split
      simp only [List.length_drop, List.length_cons] at this
      omega
    have behind : whole.drop (start + 1) = rest :=
      drop_behind (show whole.drop start = [c] ++ rest from split)
    obtain ⟨last, tiles⟩ := ih behind bounded
    rw [ofCharsFrom_blank blank]
    exact ⟨last, tiles.longest, Token.forall_stretches_from tiles.gaps
      fun place gap => gap.blank blank split, tiles.ended⟩
  | stray c rest visible nothing =>
    rw [ofCharsFrom_stray visible nothing]
    refine ⟨start, List.forall_mem_nil _, ?_, .inr ⟨c, rest, rfl, split, visible, nothing⟩⟩
    exact List.forall_mem_singleton.mpr (.self whole start)
  | piece piece rest found ih =>
    have behind := drop_behind split
    have bounded : start + piece.length ≤ whole.length := by
      have := congrArg List.length split
      simp only [List.length_drop, List.length_append, Piece.length_chars] at this
      have := (Piece.valid_of_first? found).length_pos
      omega
    rw [Piece.length_chars] at behind
    obtain ⟨last, tiles⟩ := ih behind bounded
    rw [ofCharsFrom_piece found]
    cases piece with
    | comment text =>
      exact ⟨last, tiles.longest, Token.forall_stretches_from tiles.gaps
        fun place gap => gap.comment split found, tiles.ended⟩
    | word lexeme =>
      refine ⟨last, List.forall_mem_cons.mpr ⟨?_, tiles.longest⟩,
        List.forall_mem_cons.mpr ⟨.self whole start, tiles.gaps⟩, tiles.ended⟩
      rw [split]
      exact found

end Scan

/-! ## Whole texts -/

/-- Scanning decomposes a text without loss into longest matches. The tokens stand one behind the
other, each with the text at its place, which is the longest of all pieces there, and with the kind
of that text. The stretches around the tokens hold blanks and comments. The last stretch ends with
the text or, if there is a fault, at a character that is no blank and begins no piece. -/
theorem tokens_are_longest_matches (source : String) :
    let text := source.toList
    let scan := Scan.ofString source
    (scan.tokens.Pairwise fun first second =>
      first.position < second.position ∧ first.stop ≤ second.position) ∧
    (∀ token ∈ scan.tokens,
      text.extract token.position token.stop = token.text.toList ∧
      (token.lexeme.Valid ∧ ∀ piece : Piece, piece.Valid →
        piece.chars <+: text.drop token.position → piece.length ≤ token.text.length) ∧
      (∀ lexeme : Lexeme, lexeme.Valid → lexeme.text = token.text → lexeme.kind = token.kind) ∧
      (token.kind = .keyword ↔ ∃ word : Keyword, word.text = token.text)) ∧
    ∃ last,
      (∀ stretch ∈ Token.stretches 0 scan.tokens last, stretch.1 ≤ stretch.2 ∧
        Gap (text.extract stretch.1 stretch.2) (text.drop stretch.2)) ∧
      (scan.fault = none ∧ last = text.length ∨
        ∃ c, scan.fault = some (.malformed (.strayCharacter c) (some last)) ∧
          text[last]? = some c ∧ isBlank c = false ∧
          ∀ piece : Piece, piece.Valid → ¬ piece.chars <+: text.drop last) := by
  intro text scan
  obtain ⟨last, tiles⟩ := Scan.tiles_ofCharsFrom (List.drop_zero (l := text)) (Nat.zero_le _)
  refine ⟨?_, ?_, last, tiles.gaps, ?_⟩
  · have ordered := (Token.ordered_of_stretches fun stretch member => (tiles.gaps stretch member).1).2
    refine ordered.imp_of_mem fun {first second} member _ apart => ⟨?_, apart⟩
    have positive := (Piece.valid_of_first? (tiles.longest first member)).length_pos
    unfold Token.stop at apart
    change 0 < first.text.length at positive
    omega
  · intro token member
    obtain ⟨valid, ⟨behind, begins⟩, longest⟩ :=
      Piece.first?_eq_some_iff.mp (tiles.longest token member)
    refine ⟨?_, ⟨valid, longest⟩, ?_, ?_⟩
    · rw [List.extract_eq_take_drop, Token.stop, Nat.add_sub_cancel_left, ← begins]
      exact List.take_left' String.length_toList
    · intro lexeme alsoValid same
      rw [Token.lexeme_eq valid alsoValid same, Token.kind]
    · exact Token.kind_eq_keyword_iff valid
  · rcases tiles.ended with normal | ⟨c, rest, fault, split, visible, nothing⟩
    · exact .inl normal
    · refine .inr ⟨c, fault, ?_, visible, ?_⟩
      · rw [← List.head?_drop, split, List.head?_cons]
      · rw [split]
        exact Piece.first?_eq_none_iff.mp nothing

-- An arrow is longer than a minus sign, and two hyphens are a comment and not two minus signs.
example : (Scan.ofString "a->b-c--<=d").tokens.map Token.text = ["a", "->", "b", "-", "c"] := by
  decide +kernel

end MiniFun
