import MiniFun.Proofs.ParserTermination

/-! # Tokens that are refused

The tokens in front of a syntax error begin a program, and none begins with one token more. The
converse holds as well: where some tokens begin a program and none begins with one token more, that
token is refused, whatever follows it. To find the place of an error it is then enough to know which
words begin programs.

One rule of this kind is local: an operator stands behind a word that can end an operand. There is
no operator with one operand, so that nothing else can stand in front of it.
-/

namespace MiniFun

open Text

/-! ## Numerals inside of phrases -/

/-- The numerals of a phrase are short enough to be read. -/
private theorem Derives.length_numeral_le {category : Category} {ending : Ending}
    {words : List Lexeme} {expr : Expr} (derived : Derives category ending words expr)
    {digits : String} (member : .number digits ∈ words) : digits.length ≤ numeralLimit := by
  induction derived with
  | numeral readable =>
    obtain rfl : digits = _ := by simpa using member
    rw [readNumeral?, String.length_toList] at readable
    split at readable
    · assumption
    · cases readable
  | truth | falsehood | reference | emptyList => simp at member
  | lastItem _ ih | single _ ih | operand _ ih => exact ih member
  | parentheses _ ih | list _ ih | function _ _ ih => exact ih (by simpa using member)
  | moreItems _ _ ihFront ihBack | definition _ _ _ ihFront ihBack | apply _ _ ihFront ihBack
  | toLeft _ _ _ _ ihFront ihBack | toRight _ _ _ _ ihFront ihBack
  | once _ _ _ _ ihFront ihBack => exact Or.elim (by simpa using member) ihFront ihBack
  | conditional _ _ _ ihTest ihConsequent ihAlternative =>
    exact Or.elim (by simpa using member) ihTest (Or.rec ihConsequent ihAlternative)

/-! ## The place of an error -/

/-- Two ways to cut a list: the second cut is behind the element at the first one, right in front of
it, or further to the front. -/
private theorem cut_cases {α : Type} {front behind taken rest : List α} {element : α}
    (same : front ++ element :: behind = taken ++ rest) :
    (∃ more, taken = front ++ element :: more) ∨ (taken = front ∧ rest = element :: behind) ∨
      ∃ next more, front = taken ++ next :: more ∧ rest.head? = some next := by
  rcases List.append_eq_append_iff.mp same with ⟨more, rfl, split⟩ | ⟨more, rfl, split⟩
  · cases more with
    | nil => exact .inr (.inl ⟨List.append_nil front, split.symm⟩)
    | cons next more =>
      obtain ⟨rfl, -⟩ := List.cons.inj split
      exact .inl ⟨more, rfl⟩
  · cases more with
    | nil => exact .inr (.inl ⟨(List.append_nil taken).symm, split⟩)
    | cons next more => exact .inr (.inr ⟨next, more, rfl, by rw [split]; rfl⟩)

/-- A token is refused if some program begins with the tokens in front of it and none with the token
behind them. A numeral may be too long instead. -/
theorem parse_refuses {source : String} {front behind : List Token} {refused : Token}
    (scanned : (Scan.ofString source).tokens = front ++ refused :: behind)
    (noNumeral : ∀ digits, refused.lexeme ≠ .number digits)
    (begins : Completes (Derivable .expression) (front.map Token.lexeme))
    (hopeless : ∀ rest,
      ¬ Derivable .expression (front.map Token.lexeme ++ refused.lexeme :: rest)) :
    ∃ fault, parse source = .error (.error (.malformed fault (some refused.position))) := by
  have tooFar : ∀ more, ¬ Completes (Derivable .expression)
      ((front ++ refused :: more).map Token.lexeme) := by
    rintro more ⟨suffix, -, derivable⟩
    exact hopeless (more.map Token.lexeme ++ suffix) (by simpa using derivable)
  have ends := Phrase.program.ends (.ofString source)
  generalize ran : Phrase.program.parse (.ofString source) = result at ends
  cases ends with
  | @ok expr =>
    obtain ⟨⟨_, derived⟩, -⟩ := Parser.program_sound ran
    have words : (Stream.ofString source).words = (front ++ refused :: behind).map Token.lexeme :=
      congrArg _ scanned
    rw [words] at derived
    exact (tooFar behind ⟨[], nofun, by simpa using derived.derivable⟩).elim
  | @longNumeral digits position target taken advanced long expected =>
    -- A numeral behind the token comes too late, and one in front of it is short.
    rcases cut_cases (scanned.symm.trans advanced) with
      ⟨more, rfl⟩ | ⟨-, there⟩ | ⟨next, more, rfl, there⟩
    · have completes : Completes (Derivable .expression) _ := expected "" (Nat.zero_le _)
      refine (tooFar (more ++ [⟨.number "", 0⟩]) ?_).elim
      simpa using completes
    · obtain ⟨rfl, -⟩ := List.cons.inj there
      exact (noNumeral digits rfl).elim
    · obtain rfl := Option.some.inj there
      obtain ⟨suffix, -, _, _, derived⟩ := begins
      have short : digits.length ≤ numeralLimit := derived.length_numeral_le (by simp)
      omega
  | error cause target =>
    -- An error behind the token comes too late, and one in front of it too early: the tokens up to
    -- there are completed to a program, and the parser accepts it.
    have failed : parse source = .error (.error cause) := by rw [parse, ran]
    obtain ⟨suffix, -, accepted⟩ := begins.accepts
    obtain ⟨expr, last, accepted⟩ := accepted 0
    let other := Stream.ofScan ⟨front ++ suffix, none⟩ 0
    obtain ⟨taken, rest, split, reports, completes, refuses⟩ :=
      decided_of_parse failed (other.remaining.length + 1)
    rcases cut_cases (scanned.symm.trans split) with
      ⟨more, rfl⟩ | ⟨rfl, rfl⟩ | ⟨next, more, rfl, ahead⟩
    · exact (tooFar more completes).elim
    · cases reports
      exact ⟨_, failed⟩
    · have begun : other.remaining = taken ++ next :: (more ++ suffix) :=
        List.append_assoc taken (next :: more) suffix
      exact (refuses next ahead other _ begun expr last accepted).elim

/-! ## Operators and operands -/

/-- The words that can be the last one of an operand. -/
def Lexeme.endsOperand : Lexeme → Bool
  | number _ | ident _ | rightParen | rightBracket | keyword .trueWord | keyword .falseWord => true
  | _ => false

/-- Whether each operator among the words has the end of an operand in front of it, and the last
word ends an operand. In front of the first word an operand has ended or is due. -/
def operatorsPlaced : Bool → List Lexeme → Bool
  | ended, [] => ended
  | ended, .operator _ :: rest => ended && operatorsPlaced false rest
  | _, word :: rest => operatorsPlaced word.endsOperand rest

/-- Parameters do not matter in front of a mark that is no operator. -/
private theorem operatorsPlaced_params {mark : Lexeme} (plain : ∀ op, mark ≠ .operator op)
    (params : List String) (ended : Bool) (behind : List Lexeme) :
    operatorsPlaced ended (params.map .ident ++ mark :: behind) =
      operatorsPlaced mark.endsOperand behind := by
  induction params generalizing ended with
  | nil =>
    cases mark with
    | operator op => exact (plain op rfl).elim
    | _ => rfl
  | cons param params ih => exact ih true

/-- Behind a phrase an operand has ended, whatever was in front of it. -/
theorem Derives.operatorsPlaced_append {category : Category} {ending : Ending} {words : List Lexeme}
    {expr : Expr} (derived : Derives category ending words expr) (ended : Bool)
    (behind : List Lexeme) :
    operatorsPlaced ended (words ++ behind) = operatorsPlaced true behind := by
  induction derived generalizing ended behind with
  | numeral | truth | falsehood | reference | emptyList => rfl
  | lastItem _ ih | single _ ih | operand _ ih => exact ih ended behind
  | parentheses _ ih | list _ ih => simp [operatorsPlaced, Lexeme.endsOperand, ih]
  | function _ _ ih =>
    simp [operatorsPlaced, Lexeme.endsOperand, operatorsPlaced_params, ih]
  | definition _ _ _ ihFront ihBack =>
    simp [operatorsPlaced, Lexeme.endsOperand, operatorsPlaced_params, ihFront, ihBack]
  | moreItems _ _ ihFront ihBack | apply _ _ ihFront ihBack
  | toLeft _ _ _ _ ihFront ihBack | toRight _ _ _ _ ihFront ihBack
  | once _ _ _ _ ihFront ihBack => simp [operatorsPlaced, Lexeme.endsOperand, ihFront, ihBack]
  | conditional _ _ _ ihTest ihConsequent ihAlternative =>
    simp [operatorsPlaced, Lexeme.endsOperand, ihTest, ihConsequent, ihAlternative]

/-- No program has an operator where an operand is due. -/
theorem not_derivable_of_misplaced {words : List Lexeme}
    (misplaced : operatorsPlaced false words = false) : ¬ Derivable .expression words := by
  rintro ⟨_, _, derived⟩
  have placed := derived.operatorsPlaced_append false []
  rw [List.append_nil, misplaced] at placed
  cases placed

end MiniFun
