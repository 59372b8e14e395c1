import MiniFun.Proofs.ViablePrefix

/-! # Finished runs of parsers

A run of a parser finishes if it does not stop at its limit. It then has a result, or it has raised
an error, or it has come upon a numeral with too many digits. `Finishes` says this of a run and adds
that the limit does not matter: the same parser with another limit does the same. It composes along
`>>=`, and what a parser has taken is missing from the words that are left for what follows.
-/

namespace MiniFun

open MiniFun.Parser Text

/-- The ways in which a parser ends on the source. It has taken tokens, or it has raised an error,
or the last token that it took is a numeral with too many digits. Any numeral with fewer digits in
its place begins something that reaches the goal. -/
inductive Ends {α : Type} (source : Stream) (goal : List Lexeme → Prop) :
    EStateM.Result Failure Stream α → Prop
  | ok {value : α} {target : Stream} (taken : List Token)
      (advanced : source.remaining = taken ++ target.remaining) : Ends source goal (.ok value target)
  | error (cause : Error) (target : Stream) : Ends source goal (.error (.error cause) target)
  | longNumeral {digits : String} {position : Nat} {target : Stream} (taken : List Token)
      (advanced : source.remaining = taken ++ ⟨.number digits, position⟩ :: target.remaining)
      (long : numeralLimit < digits.length)
      (expected : ∀ numeral : String, numeral.length ≤ numeralLimit →
        Completes goal (taken.map Token.lexeme ++ [.number numeral])) :
      Ends source goal (.error (.longNumeral digits.length) target)

/-- The parser ends on the source, and the other one, with another limit, does the same. -/
structure Finishes {α : Type} (retry parser : Parser α) (source : Stream)
    (goal : List Lexeme → Prop) : Prop where
  same : retry source = parser source
  ends : Ends source goal (parser source)

/-- What was taken is missing from the words. -/
theorem Stream.Advances.length_eq {source target : Stream} {words : List Lexeme}
    (advances : source.Advances target words) :
    source.words.length = words.length + target.words.length := by
  rw [advances.words_eq, List.length_append]

theorem Stream.Advances.shorter {source target : Stream} {words : List Lexeme}
    (advances : source.Advances target words) (nonempty : 0 < words.length) :
    target.words.length < source.words.length := by
  have length := advances.length_eq
  omega

namespace Finishes

variable {α β : Type} {source : Stream} {goal : List Lexeme → Prop}

theorem bind {first retry : Parser α} {second retrySecond : α → Parser β}
    (front : Finishes retry first source goal)
    (back : ∀ {value middle}, first source = .ok value middle → ∃ words,
      source.Advances middle words ∧
        Finishes (retrySecond value) (second value) middle fun rest => goal (words ++ rest)) :
    Finishes (retry >>= retrySecond) (first >>= second) source goal := by
  obtain ⟨same, ends⟩ := front
  generalize ran : first source = result at same ends
  cases ends with
  | error cause target =>
    refine ⟨by rw [bind_of_error same, bind_of_error ran], ?_⟩
    rw [bind_of_error ran]
    exact .error cause target
  | longNumeral taken advanced long expected =>
    refine ⟨by rw [bind_of_error same, bind_of_error ran], ?_⟩
    rw [bind_of_error ran]
    exact .longNumeral taken advanced long expected
  | @ok value middle taken advanced =>
    obtain ⟨words, advances, sameBack, further⟩ := back ran
    obtain rfl := advances.words_taken advanced
    refine ⟨by rw [bind_of_ok same, bind_of_ok ran, sameBack], ?_⟩
    rw [bind_of_ok ran]
    generalize second value middle = result at further
    cases further with
    | error cause target => exact .error cause target
    | ok more advancedMore =>
      refine .ok (taken ++ more) ?_
      rw [advanced, advancedMore, List.append_assoc]
    | longNumeral more advancedMore long expected =>
      have split := advanced
      rw [advancedMore, ← List.append_assoc] at split
      refine .longNumeral (taken ++ more) split long fun numeral short => ?_
      obtain ⟨suffix, valid, reached⟩ := expected numeral short
      refine ⟨suffix, valid, ?_⟩
      simpa using reached

/-- Where a phrase inside of another one can be completed, so can the outer one. -/
theorem within {retry parser : Parser α} {inner : List Lexeme → Prop}
    (finishes : Finishes retry parser source inner) (closing : List Lexeme)
    (fillers : closing.all Lexeme.isFiller = true)
    (fits : ∀ words, inner words → goal (words ++ closing)) :
    Finishes retry parser source goal := by
  obtain ⟨same, ends⟩ := finishes
  refine ⟨same, ?_⟩
  generalize parser source = result at ends
  cases ends with
  | ok taken advanced => exact .ok taken advanced
  | error cause target => exact .error cause target
  | longNumeral taken advanced long expected =>
    refine .longNumeral taken advanced long fun numeral short => ?_
    obtain ⟨suffix, valid, reached⟩ := expected numeral short
    refine ⟨suffix ++ closing, ?_, ?_⟩
    · intro word member
      exact (List.mem_append.mp member).elim (valid word) (Lexeme.valid_of_fillers fillers word)
    · rw [← List.append_assoc]
      exact fits _ reached

theorem mono {retry parser : Parser α} {inner : List Lexeme → Prop}
    (finishes : Finishes retry parser source inner) (fits : ∀ words, inner words → goal words) :
    Finishes retry parser source goal := by
  refine finishes.within [] rfl fun words reached => ?_
  rw [List.append_nil]
  exact fits words reached

/-- A loop with more turns has a turn left whenever the other one has. -/
theorem of_turns (retry : Nat → Parser α) {parser : Parser α} {count retryCount : Nat}
    (larger : count + 1 ≤ retryCount)
    (turns : ∀ more, count ≤ more → Finishes (retry (more + 1)) parser source goal) :
    Finishes (retry retryCount) parser source goal := by
  obtain ⟨more, rfl⟩ : ∃ more, retryCount = more + 1 := ⟨retryCount - 1, by omega⟩
  exact turns more (by omega)

/-! ## Steps of parsers -/

theorem pure (value : α) : Finishes (Pure.pure value) (Pure.pure value) source goal :=
  ⟨rfl, .ok [] rfl⟩

theorem reject (fault : SyntaxFault) (found : Option Token) :
    Finishes (Parser.reject fault found : Parser α) (Parser.reject fault found) source goal :=
  ⟨rfl, .error _ _⟩

theorem peek : Finishes Parser.peek Parser.peek source goal := by
  refine ⟨rfl, ?_⟩
  cases ran : Parser.peek source with
  | error failure target =>
    obtain ⟨-, cause, rfl, -⟩ := peek_error ran
    exact .error cause target
  | ok found target => exact .ok [] (peek_remaining ran).2.1.symm

theorem take : Finishes Parser.take Parser.take source goal := by
  refine ⟨rfl, ?_⟩
  cases ran : Parser.take source with
  | error failure target =>
    obtain ⟨-, cause, rfl, -⟩ := take_error ran
    exact .error cause target
  | ok found target => exact .ok _ (take_remaining ran).2.1

theorem peek_bind {next retryNext : Option Token → Parser β}
    (after : ∀ {found middle}, middle.words = source.words →
      Finishes (retryNext found) (next found) middle goal) :
    Finishes (Parser.peek >>= retryNext) (Parser.peek >>= next) source goal :=
  .bind .peek fun ran => ⟨[], (peek_ok ran).2, after (peek_ok ran).2.words_eq.symm⟩

theorem peekLexeme_bind {next retryNext : Option Lexeme → Parser β}
    (after : ∀ {found middle}, peekLexeme source = .ok found middle →
      middle.words = source.words → Finishes (retryNext found) (next found) middle goal) :
    Finishes (peekLexeme >>= retryNext) (peekLexeme >>= next) source goal := by
  refine .bind (.peek_bind fun _ => .pure _) fun ran => ?_
  have unmoved := (peekLexeme_ok ran).2
  exact ⟨[], unmoved, after ran unmoved.words_eq.symm⟩

theorem sees_bind {kind : Kind} {next retryNext : Bool → Parser β}
    (after : ∀ {answer middle}, sees (.ofKind kind) source = .ok answer middle →
      middle.words = source.words → Finishes (retryNext answer) (next answer) middle goal) :
    Finishes (sees (.ofKind kind) >>= retryNext) (sees (.ofKind kind) >>= next) source goal := by
  refine .bind (.peek_bind fun _ => .pure _) fun ran => ?_
  have unmoved := (sees_ok ran).2
  exact ⟨[], unmoved, after ran unmoved.words_eq.symm⟩

theorem expect (demand : Demand) :
    Finishes (Parser.expect demand) (Parser.expect demand) source goal := by
  refine .peek_bind fun _ => ?_
  split
  · exact .take
  · exact .reject _ _

theorem expectKind_bind (lexeme : Lexeme) (alone : lexeme.isPunctuation = true)
    {next retryNext : Unit → Parser β}
    (after : ∀ {middle : Stream}, middle.words.length < source.words.length →
      Finishes (retryNext ()) (next ()) middle fun rest => goal (lexeme :: rest)) :
    Finishes (expectKind lexeme.kind >>= retryNext) (expectKind lexeme.kind >>= next) source goal := by
  refine .bind (.bind (.expect _) fun ran => ⟨_, (expect_ok ran).2, .pure ()⟩) fun ran => ?_
  have advances := expectKind_ok lexeme alone ran
  exact ⟨[lexeme], advances, after (advances.shorter Nat.one_pos)⟩

theorem expectKeyword_bind (word : Keyword) {next retryNext : Unit → Parser β}
    (after : ∀ {middle : Stream}, middle.words.length < source.words.length →
      Finishes (retryNext ()) (next ()) middle fun rest => goal (.keyword word :: rest)) :
    Finishes (expectKeyword word >>= retryNext) (expectKeyword word >>= next) source goal := by
  refine .bind (.bind (.expect _) fun ran => ⟨_, (expect_ok ran).2, .pure ()⟩) fun ran => ?_
  have advances := expectKeyword_ok ran
  exact ⟨[.keyword word], advances, after (advances.shorter Nat.one_pos)⟩

theorem expectIdent_bind {next retryNext : String → Parser β}
    (after : ∀ {name} {middle : Stream}, middle.words.length < source.words.length →
      Finishes (retryNext name) (next name) middle fun rest => goal (.ident name :: rest)) :
    Finishes (expectIdent >>= retryNext) (expectIdent >>= next) source goal := by
  refine .bind (.bind (.expect _) fun ran => ⟨_, (expect_ok ran).2, .pure _⟩) fun {name _} ran => ?_
  have advances := expectIdent_ok ran
  exact ⟨[.ident name], advances, after (advances.shorter Nat.one_pos)⟩

theorem operator? (level : Level) :
    Finishes (Parser.operator? level) (Parser.operator? level) source goal := by
  refine .peekLexeme_bind fun _ _ => ?_
  split
  · split
    · exact .bind .take fun taken => ⟨_, take_ok taken, .pure _⟩
    · exact .pure none
  · exact .pure none

/-- A numeral is read where it was taken, or it is too long. -/
theorem take_bind {next retryNext : Option Token → Parser α}
    (after : ∀ {found middle}, Parser.take source = .ok found middle →
      Finishes (retryNext found) (next found) middle
          (fun rest => goal ((found.map Token.lexeme).toList ++ rest)) ∨
        ∃ digits position, found = some ⟨.number digits, position⟩ ∧
          next found = throw (.longNumeral digits.length) ∧
          retryNext found = throw (.longNumeral digits.length) ∧ numeralLimit < digits.length ∧
          ∀ numeral : String, numeral.length ≤ numeralLimit → Completes goal [.number numeral]) :
    Finishes (Parser.take >>= retryNext) (Parser.take >>= next) source goal := by
  cases ran : Parser.take source with
  | error failure target =>
    obtain ⟨-, cause, rfl, -⟩ := take_error ran
    refine ⟨by rw [bind_of_error ran, bind_of_error ran], ?_⟩
    rw [bind_of_error ran]
    exact .error cause target
  | ok found middle =>
    obtain finishes | ⟨digits, position, rfl, fails, retryFails, long, expected⟩ := after ran
    · refine .bind .take fun again => ?_
      obtain ⟨rfl, rfl⟩ := EStateM.Result.ok.inj (ran.symm.trans again)
      exact ⟨_, take_ok ran, finishes⟩
    · refine ⟨by rw [bind_of_ok ran, bind_of_ok ran, fails, retryFails], ?_⟩
      rw [bind_of_ok ran, fails]
      exact .longNumeral [] (take_remaining ran).2.1 long expected

/-- The parameters end at the latest with the words. -/
theorem params {limit retryLimit : Nat} (larger : limit ≤ retryLimit)
    (enough : source.words.length < limit) :
    Finishes (Parser.params retryLimit) (Parser.params limit) source goal := by
  induction limit generalizing retryLimit source goal with
  | zero => exact absurd enough (Nat.not_lt_zero _)
  | succ limit ih =>
    refine .of_turns Parser.params larger fun retryLimit larger => ?_
    refine .peekLexeme_bind fun peeked unmoved => ?_
    split
    · rename_i name
      refine .bind .take fun taken => ?_
      have advances := (peekLexeme_ok peeked).2.after (take_after_peekLexeme peeked taken)
      have shorter := advances.shorter Nat.one_pos
      rw [unmoved] at shorter
      refine ⟨[.ident name], advances, .bind (ih larger (by omega)) fun more => ?_⟩
      exact ⟨_, params_ok more, .pure _⟩
    · exact .pure []

/-- A phrase in front of what follows takes a word at least. -/
theorem phrase {category : Category} {parser retry : Parser Expr} {next retryNext : Expr → Parser β}
    (sound : parser.Sound category)
    (finishes : Finishes retry parser source (Derivable category)) (closing : List Lexeme)
    (fillers : closing.all Lexeme.isFiller = true)
    (fits : ∀ {ending words expr}, Derives category ending words expr → goal (words ++ closing))
    (after : ∀ {value middle ending words}, Derives category ending words value →
      Stops (category.bound ending) middle.words → middle.words.length < source.words.length →
        Finishes (retryNext value) (next value) middle fun rest => goal (words ++ rest)) :
    Finishes (retry >>= retryNext) (parser >>= next) source goal := by
  refine .bind (finishes.within closing fillers fun words ⟨_, _, derived⟩ => fits derived) ?_
  intro value middle ran
  obtain ⟨ending, words, advances, derived, stops⟩ := sound _ _ _ ran
  exact ⟨words, advances, after derived stops (advances.shorter derived.length_pos)⟩

/-- A phrase that reaches the goal as soon as it is complete. -/
theorem lastPhrase {category : Category} {parser retry : Parser Expr}
    {next retryNext : Expr → Parser β} (sound : parser.Sound category)
    (finishes : Finishes retry parser source (Derivable category))
    (fits : ∀ {ending words expr}, Derives category ending words expr → goal words)
    (after : ∀ {value middle ending words}, Derives category ending words value →
      Stops (category.bound ending) middle.words → middle.words.length < source.words.length →
        Finishes (retryNext value) (next value) middle fun rest => goal (words ++ rest)) :
    Finishes (retry >>= retryNext) (parser >>= next) source goal := by
  refine .phrase sound finishes [] rfl (fun derived => ?_) after
  rw [List.append_nil]
  exact fits derived

end Finishes

end MiniFun
