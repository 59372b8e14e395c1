import MiniFun.Proofs.Dialogues
import MiniFun.Proofs.LongestMatch
import MiniFun.Proofs.ParserTermination

/-! # Layout

How a program is laid out shows in the positions of its tokens and in nothing else. The words of a
text, written with one space between them, are scanned as the same words again. And texts of the
same words are read alike: a dialogue with one text is the same dialogue with the other, until both
end with one result or refuse the tokens of one index.
-/

namespace MiniFun

open Text

/-! ## Words with spaces between them -/

/-- A word that a text can hold is read wherever nothing behind goes on with it. -/
private theorem Lexeme.Valid.spells {word : Lexeme} (valid : word.Valid) :
    Spells word.text.toList [word] := by
  cases word with
  | number digits => exact .number valid
  | ident name => exact .ident valid
  | keyword word => exact .keyword word
  | operator op => exact .operator op
  | arrow => exact .arrow
  | equals => exact .equals
  | _ => exact fun _ _ => .word rfl rfl rfl

theorem Spells.nil : Spells [] [] := fun _ _ _ => ⟨rfl, rfl⟩

theorem Spells.spaced {words : List Lexeme} (valid : ∀ word ∈ words, word.Valid) :
    Spells ([' '].intercalate (words.map fun word => word.text.toList)) words := by
  induction words with
  | nil => exact .nil
  | cons word words ih =>
    have first : Spells word.text.toList [word] := (valid word List.mem_cons_self).spells
    have others := ih fun other member => valid other (List.mem_cons_of_mem word member)
    cases words with
    | nil =>
      rw [List.map_singleton, List.intercalate_singleton]
      exact first
    | cons next words =>
      rw [List.map_cons, List.map_cons, List.intercalate_cons_cons, List.append_assoc]
      exact .space first others

/-- A text is spelled by one word only. -/
private theorem Lexeme.eq_of_texts_eq {words others : List Lexeme}
    (valid : ∀ word ∈ words, word.Valid) (othersValid : ∀ word ∈ others, word.Valid)
    (same : words.map text = others.map text) :
    words = others := by
  induction words generalizing others with
  | nil => exact (List.map_eq_nil_iff.mp same.symm).symm
  | cons word words ih =>
    obtain ⟨other, others, rfl, first, further⟩ := List.map_eq_cons_iff.mp same.symm
    rw [List.forall_mem_cons] at valid othersValid
    have equal : word = other :=
      @Token.lexeme_eq ⟨other, 0⟩ word othersValid.1 valid.1 first.symm
    rw [equal, ih valid.2 othersValid.2 further.symm]

namespace Scan

def outline (scan : Scan) : List (Kind × String) :=
  scan.tokens.map fun token => (token.kind, token.text)

/-- The texts of the tokens with one space between them. -/
def spaced (scan : Scan) : String :=
  " ".intercalate (scan.tokens.map Token.text)

private theorem outline_eq_words (scan : Scan) :
    scan.outline = scan.words.map fun word => (word.kind, word.text) := by
  rw [words, List.map_map]
  rfl

private theorem valid_of_mem_words {source : String} {word : Lexeme}
    (member : word ∈ (ofString source).words) : word.Valid := by
  obtain ⟨token, present, rfl⟩ := List.mem_map.mp member
  exact valid_of_mem present

/-- The words of a text, with spaces between them, are scanned as they were. -/
theorem ofString_spaced (source : String) :
    (ofString (ofString source).spaced).words = (ofString source).words ∧
      (ofString (ofString source).spaced).fault = none := by
  have valid : ∀ word ∈ (ofString source).words, word.Valid := fun _ => valid_of_mem_words
  have chars : (ofString source).spaced.toList =
      [' '].intercalate ((ofString source).words.map fun word => word.text.toList) := by
    rw [spaced, String.toList_intercalate, List.map_map, words, List.map_map]
    rfl
  refine Reads.ofString ?_
  rw [chars]
  exact Spells.spaced valid [] .nil

/-- Texts of one outline have the same words. -/
private theorem words_eq_of_outline_eq {first second : String}
    (same : (ofString first).outline = (ofString second).outline) :
    (ofString first).words = (ofString second).words := by
  rw [outline_eq_words, outline_eq_words] at same
  refine Lexeme.eq_of_texts_eq (fun _ => valid_of_mem_words) (fun _ => valid_of_mem_words) ?_
  have texts := congrArg (List.map Prod.snd) same
  rw [List.map_map, List.map_map] at texts
  exact texts

end Scan

/-! ## Two dialogues side by side -/

private theorem sameWord_of_words {tokens tokens' : List Token}
    (same : tokens.map Token.lexeme = tokens'.map Token.lexeme) (index : Nat) :
    tokens[index]?.map Token.lexeme = tokens'[index]?.map Token.lexeme := by
  rw [← List.getElem?_map, ← List.getElem?_map, same]

def Request.next : Request → Nat → Nat
  | look, index => index
  | take, index => index + 1

/-- The stream, which comes to its end without a fault, stands in front of the token with the
index. -/
structure Stream.StandsAt (stream : Stream) (tokens : List Token) (endPosition : Int)
    (index : Nat) : Prop where
  remaining : stream.remaining = tokens.drop index
  sound : stream.fault = none
  ending : stream.endPosition = endPosition

/-- Where the token with the index stands, or the end of the input. -/
def placeOf (tokens : List Token) (endPosition : Int) (index : Nat) : Int :=
  tokens[index]?.elim endPosition fun token => token.position

namespace Stream.StandsAt

variable {stream : Stream} {tokens : List Token} {endPosition : Int} {index : Nat}

private theorem reject {α : Type} (stands : stream.StandsAt tokens endPosition index)
    (fault : SyntaxFault) (place : Nat) :
    (Parser.reject fault tokens[place]? : Parser α) stream =
      .error (.error (.malformed fault (some (placeOf tokens endPosition place)))) stream := by
  rw [placeOf, ← stands.ending]
  cases tokens[place]? <;> rfl

/-- A request is answered with the token at the index, or with the end of the input. Behind the end
all indices are the same place. -/
theorem serve (stands : stream.StandsAt tokens endPosition index) (request : Request) :
    ∃ target, request.serve stream = .ok tokens[index]? target ∧
      target.StandsAt tokens endPosition (request.next index) := by
  have left : tokens.drop (request.next index) = request.leaves (tokens.drop index) := by
    cases request with
    | look => rfl
    | take => exact List.tail_drop.symm
  rw [← List.head?_drop]
  cases ahead : tokens.drop index with
  | nil =>
    have nothing := stands.remaining.trans ahead
    refine ⟨stream, request.serve_ending nothing stands.sound, ?_, stands.sound, stands.ending⟩
    rw [left, ahead, nothing]
    cases request <;> rfl
  | cons token rest =>
    obtain ⟨target, served, remaining, same⟩ :=
      request.serve_token (stands.remaining.trans ahead)
    refine ⟨target, served, ?_, same.fault.trans stands.sound, same.position.trans stands.ending⟩
    rw [remaining, stands.remaining, left]

theorem ofString {source : String} (sound : (Scan.ofString source).fault = none) :
    (ofString source).StandsAt (Scan.ofString source).tokens source.length 0 :=
  ⟨rfl, sound, rfl⟩

end Stream.StandsAt

/-- The two results are alike except for the places that they name. -/
inductive SameCourse {α : Type} (place place' : Nat → Int) :
    EStateM.Result Failure Stream α → EStateM.Result Failure Stream α → Prop
  | ok (value : α) (target target' : Stream) :
      SameCourse place place' (.ok value target) (.ok value target')
  | limit (limit : ParseLimit) (target target' : Stream) :
      SameCourse place place' (.error limit.failure target) (.error limit.failure target')
  | refused (fault : SyntaxFault) (index : Nat) (target target' : Stream) :
      SameCourse place place' (.error (.error (.malformed fault (some (place index)))) target)
        (.error (.error (.malformed fault (some (place' index)))) target')

theorem Dialogue.sameCourse {α : Type} (dialogue : Dialogue α) {tokens tokens' : List Token}
    (same : tokens.map Token.lexeme = tokens'.map Token.lexeme) {endPosition endPosition' : Int}
    {index : Nat} {stream stream' : Stream} (stands : stream.StandsAt tokens endPosition index)
    (stands' : stream'.StandsAt tokens' endPosition' index) :
    SameCourse (placeOf tokens endPosition) (placeOf tokens' endPosition') (dialogue.run stream)
      (dialogue.run stream') := by
  induction dialogue generalizing index stream stream' with
  | done value => exact .ok value stream stream'
  | giveUp limit => exact .limit limit stream stream'
  | ask request verdict next ih =>
    obtain ⟨target, served, stands⟩ := stands.serve request
    obtain ⟨target', served', stands'⟩ := stands'.serve request
    rw [run, bind_of_ok served, bind_of_ok served', sameWord_of_words same]
    cases verdict (tokens'[index]?.map Token.lexeme) with
    | none => exact ih _ stands stands'
    | some refusal =>
      dsimp only
      rw [stands.reject, stands'.reject]
      exact .refused refusal.val index target target'

/-! ## Texts of the same words -/

/-- The places stand for each other: those of the tokens of one index, or the ends of the texts. -/
inductive SamePlace (first second : String) : Int → Int → Prop
  | token {index : Nat} {found found' : Token}
      (known : (Scan.ofString first).tokens[index]? = some found)
      (known' : (Scan.ofString second).tokens[index]? = some found') :
      SamePlace first second found.position found'.position
  | ending : SamePlace first second first.length second.length

private theorem samePlace_of_index {first second : String}
    (same : (Scan.ofString first).words = (Scan.ofString second).words) (index : Nat) :
    SamePlace first second (placeOf (Scan.ofString first).tokens first.length index)
      (placeOf (Scan.ofString second).tokens second.length index) := by
  have sameWord := sameWord_of_words same index
  rw [placeOf, placeOf]
  cases known : (Scan.ofString first).tokens[index]? with
  | none =>
    rw [known] at sameWord
    rw [Option.map_eq_none_iff.mp sameWord.symm]
    exact .ending
  | some found =>
    rw [known] at sameWord
    obtain ⟨found', known', -⟩ := Option.map_eq_some_iff.mp sameWord.symm
    rw [known']
    exact .token known known'

theorem sameCourse_of_words {first second : String}
    (firstSound : (Scan.ofString first).fault = none)
    (secondSound : (Scan.ofString second).fault = none)
    (same : (Scan.ofString first).words = (Scan.ofString second).words) :
    SameCourse (placeOf (Scan.ofString first).tokens first.length)
      (placeOf (Scan.ofString second).tokens second.length)
      (Phrase.program.parse (.ofString first)) (Phrase.program.parse (.ofString second)) := by
  obtain ⟨dialogue, conducts⟩ :=
    Phrase.program.conducted ((Stream.ofString first).remaining.length + 1)
  have sameLength :
      (Stream.ofString first).remaining.length = (Stream.ofString second).remaining.length := by
    rw [Stream.length_remaining, Stream.length_remaining]
    exact congrArg List.length same
  rw [Phrase.parse_apply, Phrase.parse_apply, ← sameLength, ← conducts]
  exact dialogue.sameCourse same (.ofString firstSound) (.ofString secondSound)

/-- The layout of a text does not matter. If it is scanned without a fault, then so are its words
with single spaces between them, and they are the same words. Two such texts with the same words
denote the same expression, or both hold the same numeral that is too long, or both are refused
for the same fault, at the tokens of one index or at their ends. -/
theorem layout_does_not_matter (first second : String)
    (firstSound : (Scan.ofString first).fault = none)
    (secondSound : (Scan.ofString second).fault = none) :
    ((Scan.ofString (Scan.ofString first).spaced).fault = none ∧
      (Scan.ofString (Scan.ofString first).spaced).outline = (Scan.ofString first).outline) ∧
    ((Scan.ofString first).outline = (Scan.ofString second).outline →
      (∃ expr, parse first = .ok expr ∧ parse second = .ok expr) ∨
      (∃ digits, parse first = .error (.longNumeral digits) ∧
        parse second = .error (.longNumeral digits)) ∨
      ∃ fault place place',
        parse first = .error (.error (.malformed fault (some place))) ∧
        parse second = .error (.error (.malformed fault (some place'))) ∧
        Error.message (.malformed fault (some place)) =
          fault.message ++ " at " ++ decimal place ∧
        Error.message (.malformed fault (some place')) =
          fault.message ++ " at " ++ decimal place' ∧
        SamePlace first second place place') := by
  obtain ⟨sameWords, sound⟩ := Scan.ofString_spaced first
  refine ⟨⟨sound, ?_⟩, fun sameOutline => ?_⟩
  · rw [Scan.outline_eq_words, Scan.outline_eq_words, sameWords]
  have same := Scan.words_eq_of_outline_eq sameOutline
  have course := sameCourse_of_words firstSound secondSound same
  have notDeep := Phrase.program.not_tooDeep (.ofString first)
  rw [parse, parse]
  generalize Phrase.program.parse (.ofString first) = result at course notDeep
  generalize Phrase.program.parse (.ofString second) = result' at course
  cases course with
  | ok expr => exact .inl ⟨expr, rfl, rfl⟩
  | refused fault index =>
    exact .inr (.inr ⟨fault, _, _, rfl, rfl, rfl, rfl, samePlace_of_index same index⟩)
  | limit limit target =>
    cases limit with
    | nesting => exact (notDeep target rfl).elim
    | numeral digits => exact .inr (.inl ⟨digits, rfl, rfl⟩)

/-- A comment, a tab and a line feed in other places, in front of a second comparison. -/
theorem layout_does_not_matter_around_comment :
    let first := "f x<=y==z"
    let second := "f x -- two\n\t<= y == z"
    (Scan.ofString first).fault = none ∧ (Scan.ofString second).fault = none ∧
      (Scan.ofString (Scan.ofString first).spaced).outline = (Scan.ofString first).outline ∧
      ∃ fault place place',
        parse first = .error (.error (.malformed fault (some place))) ∧
        parse second = .error (.error (.malformed fault (some place'))) ∧
        SamePlace first second place place' := by
  intro first second
  have firstSound : (Scan.ofString first).fault = none := by decide +kernel
  have secondSound : (Scan.ofString second).fault = none := by decide +kernel
  have refused : (match parse first with | .ok _ => none | .error failure => some failure) =
      some (.error (.malformed (.chainedComparison .equal) (some 6))) := by decide +kernel
  obtain ⟨spaced, alike⟩ := layout_does_not_matter first second firstSound secondSound
  refine ⟨firstSound, secondSound, spaced.2, ?_⟩
  rcases alike (by decide +kernel) with ⟨expr, parsed, -⟩ | ⟨digits, long, -⟩ | malformed
  · rw [parsed] at refused
    cases refused
  · rw [long] at refused
    cases refused
  · obtain ⟨fault, place, place', failed, failed', -, -, same⟩ := malformed
    exact ⟨fault, place, place', failed, failed', same⟩

end MiniFun
