import MiniFun.Proofs.FinishedRuns

/-! # Parsers come to an end

The limit of a parser bounds its nesting and its repetitions. One more than the number of tokens is
always enough: every turn of a loop takes a token, and so does every phrase before it asks for an
expression inside of it. A binding form in the place of an operand goes back to the loosest level
with nothing taken, but its opening word is taken before anything else. At the end of the input
there is nothing to take, so that no loop goes on there and no phrase is found.

Hence the limit is never reached, and a larger one changes nothing. What is left besides a result
and an error is a numeral with too many digits in the place of an atom: with fewer digits it would
go on as the beginning of a phrase.
-/

namespace MiniFun

open MiniFun.Parser Text

namespace Parser

/-- Numerals are read up to the limit on their digits. -/
private theorem readNumeral?_of_le {digits : String} (short : digits.length ≤ numeralLimit) :
    readNumeral? digits.toList = some (digitsValue digits.toList) := by
  rw [readNumeral?, if_pos (by rwa [String.length_toList])]

private theorem numeral_of_long {digits : String} (long : numeralLimit < digits.length) :
    numeral digits = throw (.longNumeral digits.length) := by
  rw [numeral, readNumeral?, if_neg (by rw [String.length_toList]; omega)]

-- The measure is the number of words left. The parser of the expressions inside finishes below the
-- limit, and a phrase whose first word is still there may begin at the limit itself.
section

variable {limit retryLimit : Nat} {expr retry : Parser Expr} (sound : expr.Sound .expression)
  (finishes : ∀ {source : Stream}, source.words.length < limit →
    Finishes retry expr source (Derivable .expression))
  (larger : limit ≤ retryLimit)
include sound finishes

/-! ## Atoms -/

/-- Each turn takes a comma, so that there are always more turns left than words. -/
private theorem furtherItems_finishes {count retryCount : Nat} (nested : count ≤ limit)
    (more : count ≤ retryCount) {source : Stream} (enough : source.words.length < count)
    {ending : Ending} {front : List Lexeme} {first : Expr}
    (head : Derives .expression ending front first) :
    Finishes (furtherItems retry retryCount) (furtherItems expr count) source
      fun rest => Derivable .items (front ++ rest) := by
  induction count generalizing retryCount source ending front first with
  | zero => exact absurd enough (Nat.not_lt_zero _)
  | succ count ih =>
    refine .of_turns (furtherItems retry) more fun retryCount more => ?_
    refine .sees_bind fun {comma middle} looked unmoved => ?_
    cases comma with
    | false => exact .pure []
    | true =>
      refine .bind .take fun {_ behind} taken => ?_
      have advances := (sees_ok looked).2.after (take_after_sees .comma rfl looked taken)
      have shorter := advances.shorter Nat.one_pos
      rw [unmoved] at shorter
      refine ⟨[.comma], advances, .lastPhrase sound (finishes (by omega)) ?_ ?_⟩
      · intro ending words item derived
        exact (head.moreItems (.lastItem derived)).derivable
      · intro item middle ending words derived _ shorter
        refine .bind ((ih (by omega) more (by omega) derived).mono fun words => ?_) fun ran => ?_
        · rintro ⟨_, _, items⟩
          exact (head.moreItems items).derivable
        · obtain ⟨rest, _, advances, -⟩ := furtherItems_sound sound derived ran
          exact ⟨rest, advances, .pure _⟩

include larger

private theorem listRest_finishes {source : Stream} (enough : source.words.length < limit) :
    Finishes (listRest retryLimit retry) (listRest limit expr) source
      fun rest => Derivable .atom (.leftBracket :: rest) := by
  refine .sees_bind fun {closed middle} looked unmoved => ?_
  rw [← unmoved] at enough
  cases closed with
  | true => exact .expectKind_bind .rightBracket rfl fun _ => .pure _
  | false =>
    refine .phrase sound (finishes enough) [.rightBracket] rfl (fun derived => ?_) ?_
    · exact (Derives.list (.lastItem derived)).derivable
    · intro first middle ending words derived _ shorter
      have enough : middle.words.length < limit := by omega
      have items := furtherItems_finishes sound finishes (Nat.le_refl limit) larger enough derived
      refine .bind (items.within [.rightBracket] rfl ?_) fun ran => ?_
      · rintro words ⟨_, _, items⟩
        rw [← List.append_assoc]
        exact (Derives.list items).derivable
      · obtain ⟨rest, _, advances, -⟩ := furtherItems_sound sound derived ran
        exact ⟨rest, advances, .expectKind_bind .rightBracket rfl fun _ => .pure _⟩

private theorem atom_finishes {source : Stream} (enough : source.words.length ≤ limit) :
    Finishes (atom retryLimit retry) (atom limit expr) source (Derivable .atom) := by
  refine .take_bind fun {found middle} taken => ?_
  have length := (take_ok taken).length_eq
  cases found with
  | none => exact .inl (.reject _ _)
  | some token =>
    rcases token with ⟨word, position⟩
    simp only [Option.map_some, Option.toList_some, List.length_singleton] at length
    cases word with
    | number digits =>
      -- Only here can a run end at a numeral; a short one would have been an atom.
      by_cases short : digits.length ≤ numeralLimit
      · refine .inl ?_
        simp only [Option.map_some, numeral, readNumeral?_of_le short]
        exact .pure _
      · have fails := numeral_of_long (Nat.lt_of_not_le short)
        refine .inr ⟨digits, position, rfl, fails, fails, Nat.lt_of_not_le short, ?_⟩
        intro numeral short
        exact .with_fillers [] rfl (Derives.numeral (readNumeral?_of_le short)).derivable
    | ident name => exact .inl (.pure _)
    | keyword word =>
      cases word with
      | trueWord | falseWord => exact .inl (.pure _)
      | _ => exact .inl (.reject _ _)
    | leftParen =>
      refine .inl (.phrase sound (finishes (by omega)) [.rightParen] rfl ?_ ?_)
      · intro ending words inner derived
        exact (Derives.parentheses derived).derivable
      · intro inner middle ending words derived _ _
        exact .expectKind_bind .rightParen rfl fun _ => .pure _
    | leftBracket => exact .inl (listRest_finishes sound finishes larger (by omega))
    | _ => exact .inl (.reject _ _)

/-! ## Binding forms -/

/-- The opening word is taken before the parameters and the body. -/
private theorem function_finishes {source : Stream} (enough : source.words.length ≤ limit) :
    Finishes (function retryLimit retry) (function limit expr) source (Derivable .application) := by
  refine .expectKind_bind .backslash rfl fun {middle} shorter => ?_
  refine .bind (.params larger (by omega)) fun {names _} parameters => ?_
  have advances := params_ok parameters
  have length := advances.length_eq
  refine ⟨_, advances, ?_⟩
  cases names with
  | nil => exact .peek_bind fun _ => .reject _ _
  | cons name names =>
    refine .expectKind_bind .arrow rfl fun {middle} behindArrow => ?_
    refine .lastPhrase sound (finishes (by omega)) (fun derived => ?_) fun _ _ _ => .pure _
    exact (Derives.function (List.cons_ne_nil name names) derived).derivable

private theorem definition_finishes {source : Stream} (enough : source.words.length ≤ limit) :
    Finishes (definition retryLimit retry) (definition limit expr) source
      (Derivable .application) := by
  obtain ⟨_, _, filler⟩ := derivable_filler .disjunction
  refine .expectKeyword_bind .letWord fun {middle} behindLet => ?_
  refine .expectIdent_bind fun {name middle} behindName => ?_
  refine .bind (.params larger (by omega)) fun {names _} parameters => ?_
  have advances := params_ok parameters
  have length := advances.length_eq
  refine ⟨_, advances, ?_⟩
  refine .expectKind_bind .equals rfl fun {middle} behindEquals => ?_
  refine .phrase sound (finishes (by omega)) [.keyword .inWord, .filler] rfl ?_ ?_
  · intro ending words bound derived
    exact (Derives.definition name derived filler).derivable
  intro bound middle ending words derivedBound _ behindBound
  refine .expectKeyword_bind .inWord fun {middle} behindIn => ?_
  refine .lastPhrase sound (finishes (by omega)) (fun derived => ?_) fun _ _ _ => .pure _
  exact (Derives.definition name derivedBound derived).derivable

omit larger in
private theorem conditional_finishes {source : Stream} (enough : source.words.length ≤ limit) :
    Finishes (conditional retry) (conditional expr) source (Derivable .application) := by
  obtain ⟨_, _, filler⟩ := derivable_filler .disjunction
  refine .expectKeyword_bind .ifWord fun {middle} behindIf => ?_
  refine .phrase sound (finishes (by omega))
    [.keyword .thenWord, .filler, .keyword .elseWord, .filler] rfl ?_ ?_
  · intro ending words test derived
    exact (Derives.conditional derived filler filler).derivable
  intro test middle ending words derivedTest _ behindTest
  refine .expectKeyword_bind .thenWord fun {middle} behindThen => ?_
  refine .phrase sound (finishes (by omega)) [.keyword .elseWord, .filler] rfl ?_ ?_
  · intro ending words consequent derived
    exact (Derives.conditional derivedTest derived filler).derivable
  intro consequent middle ending words derivedConsequent _ behindConsequent
  refine .expectKeyword_bind .elseWord fun {middle} behindElse => ?_
  refine .lastPhrase sound (finishes (by omega)) (fun derived => ?_) fun _ _ _ => .pure _
  exact (Derives.conditional derivedTest derivedConsequent derived).derivable

private theorem bindingForm_finishes (form : BindingForm) {source : Stream}
    (enough : source.words.length ≤ limit) :
    Finishes (bindingForm retryLimit retry form) (bindingForm limit expr form) source
      (Derivable .application) := by
  cases form with
  | function => exact function_finishes sound finishes larger enough
  | definition => exact definition_finishes sound finishes larger enough
  | conditional => exact conditional_finishes sound finishes enough

/-! ## Application -/

/-- A turn is begun only in front of a word that begins an atom, and the atom takes it. -/
private theorem arguments_finishes {count retryCount : Nat} (nested : count ≤ limit)
    (more : count ≤ retryCount) {source : Stream} (enough : source.words.length < count)
    {front : List Lexeme} {function : Expr} (head : Derives .application .closed front function) :
    Finishes (arguments (atom retryLimit retry) retryCount function)
      (arguments (atom limit expr) count function) source
      fun rest => Derivable .application (front ++ rest) := by
  induction count generalizing retryCount source front function with
  | zero => exact absurd enough (Nat.not_lt_zero _)
  | succ count ih =>
    refine .of_turns (arguments (atom retryLimit retry) · function) more fun retryCount more => ?_
    refine .peekLexeme_bind fun {found middle} _ unmoved => ?_
    rw [← unmoved] at enough
    split
    · refine .lastPhrase (atom_sound sound)
        (atom_finishes sound finishes larger (by omega)) ?_ ?_
      · intro ending words argument derived
        obtain rfl := derived.closed_of_atom
        exact (head.apply derived).derivable
      · intro argument middle ending words derived _ shorter
        obtain rfl := derived.closed_of_atom
        refine (ih (by omega) more (by omega) (head.apply derived)).mono fun rest whole => ?_
        rw [← List.append_assoc]
        exact whole
    · exact .pure function

private theorem application_finishes {source : Stream} (enough : source.words.length ≤ limit) :
    Finishes (application retryLimit retry) (application limit expr) source
      (Derivable .application) := by
  refine .peekLexeme_bind fun {found middle} _ unmoved => ?_
  rw [← unmoved] at enough
  generalize BindingForm.openedBy? found = form?
  cases form? with
  | some form => exact bindingForm_finishes sound finishes larger form enough
  | none =>
    refine .lastPhrase (atom_sound sound) (atom_finishes sound finishes larger enough) ?_ ?_
    · intro ending words function derived
      obtain rfl := derived.closed_of_atom
      exact (Derives.single derived).derivable
    · intro function middle ending words derived _ shorter
      obtain rfl := derived.closed_of_atom
      exact arguments_finishes sound finishes larger (Nat.le_refl limit) larger (by omega)
        (.single derived)

end

/-! ## Operators -/

section

variable {limit retryLimit : Nat} {level : Level} {operand retry : Parser Expr}
  (sound : operand.Sound level.operand)
  (finishes : ∀ {source : Stream}, source.words.length ≤ limit →
    Finishes retry operand source (Derivable level.operand))
include sound finishes

/-- Each turn takes an operator and an operand. -/
private theorem leftOperands_finishes (assoc : level.associativity = .left) {count retryCount : Nat}
    (nested : count ≤ limit) (more : count ≤ retryCount) {source : Stream}
    (enough : source.words.length < count) {left : Expr} {ending : Ending} {front : List Lexeme}
    (head : Derives (.operations level) ending front left)
    (stops : Stops (level.operand.bound ending) source.words) :
    Finishes (leftOperands level retry retryCount left) (leftOperands level operand count left)
      source fun rest => Derivable (.operations level) (front ++ rest) := by
  induction count generalizing retryCount source left ending front with
  | zero => exact absurd enough (Nat.not_lt_zero _)
  | succ count ih =>
    refine .of_turns (leftOperands level retry · left) more fun retryCount more => ?_
    refine .bind (.operator? level) fun looked => ?_
    obtain ⟨op, rfl, atLevel, advances⟩ | ⟨rfl, unmoved, -⟩ := operator?_ok looked
    · have shorter := advances.shorter Nat.one_pos
      rw [advances.words_eq] at stops
      obtain rfl := stops.closed_of_operator
      refine ⟨_, advances, .lastPhrase sound (finishes (by omega)) ?_ ?_⟩
      · intro last words right derived
        exact (head.toLeft assoc atLevel derived).derivable
      · intro right middle last words derived after shorter
        refine (ih (by omega) more (by omega) (head.toLeft assoc atLevel derived) after).mono ?_
        intro rest whole
        rw [List.append_assoc] at whole
        exact whole
    · exact ⟨[], unmoved, .pure left⟩

private theorem rightOperands_finishes (assoc : level.associativity = .right)
    {count retryCount : Nat} (nested : count ≤ limit) (more : count ≤ retryCount) {source : Stream}
    (enough : source.words.length < count) {left : Expr} {ending : Ending} {front : List Lexeme}
    (head : Derives level.operand ending front left)
    (stops : Stops (level.operand.bound ending) source.words) :
    Finishes (rightOperands level retry retryCount left) (rightOperands level operand count left)
      source fun rest => Derivable (.operations level) (front ++ rest) := by
  induction count generalizing retryCount source left ending front with
  | zero => exact absurd enough (Nat.not_lt_zero _)
  | succ count ih =>
    refine .of_turns (rightOperands level retry · left) more fun retryCount more => ?_
    refine .bind (.operator? level) fun looked => ?_
    obtain ⟨op, rfl, atLevel, advances⟩ | ⟨rfl, unmoved, -⟩ := operator?_ok looked
    · have shorter := advances.shorter Nat.one_pos
      rw [advances.words_eq] at stops
      obtain rfl := stops.closed_of_operator
      refine ⟨_, advances, .lastPhrase sound (finishes (by omega)) ?_ ?_⟩
      · intro last words right derived
        exact (head.toRight assoc atLevel (.operand derived)).derivable
      · intro next middle last words derived after shorter
        refine .bind ((ih (by omega) more (by omega) derived after).mono ?_) fun ran => ?_
        · rintro rest ⟨_, _, whole⟩
          exact (head.toRight assoc atLevel whole).derivable
        · obtain ⟨_, rest, advances, -⟩ := rightOperands_sound sound assoc derived after ran
          exact ⟨rest, advances, .pure _⟩
    · exact ⟨[], unmoved, .pure left⟩

private theorem leftChain_finishes (assoc : level.associativity = .left)
    (larger : limit ≤ retryLimit) {source : Stream} (enough : source.words.length ≤ limit) :
    Finishes (leftChain level retry retryLimit) (leftChain level operand limit) source
      (Derivable (.operations level)) := by
  refine .lastPhrase sound (finishes enough) (fun derived => ?_) fun derived stops shorter => ?_
  · exact (Derives.operand derived).derivable
  · exact leftOperands_finishes sound finishes assoc (Nat.le_refl limit) larger (by omega)
      (.operand derived) stops

private theorem rightChain_finishes (assoc : level.associativity = .right)
    (larger : limit ≤ retryLimit) {source : Stream} (enough : source.words.length ≤ limit) :
    Finishes (rightChain level retry retryLimit) (rightChain level operand limit) source
      (Derivable (.operations level)) := by
  refine .lastPhrase sound (finishes enough) (fun derived => ?_) fun derived stops shorter => ?_
  · exact (Derives.operand derived).derivable
  · exact rightOperands_finishes sound finishes assoc (Nat.le_refl limit) larger (by omega)
      derived stops

private theorem noChain_finishes (assoc : level.associativity = .none) {source : Stream}
    (enough : source.words.length ≤ limit) :
    Finishes (noChain level retry) (noChain level operand) source
      (Derivable (.operations level)) := by
  refine .lastPhrase sound (finishes enough) (fun derived => (Derives.operand derived).derivable) ?_
  intro left middle _ front derived stops shorter
  refine .bind (.operator? level) fun looked => ?_
  obtain ⟨op, rfl, atLevel, advances⟩ | ⟨rfl, unmoved, -⟩ := operator?_ok looked
  · have behindOperator := advances.shorter Nat.one_pos
    rw [advances.words_eq] at stops
    obtain rfl := stops.closed_of_operator
    refine ⟨_, advances, .lastPhrase sound (finishes (by omega)) ?_ ?_⟩
    · intro last words right derivedRight
      exact (derived.once assoc atLevel derivedRight).derivable
    · intro right behind last words derivedRight after _
      refine .peek_bind fun {second _} _ => ?_
      generalize second.map Token.lexeme = word
      split
      · split
        · exact .reject _ _
        · exact .pure _
      · exact .pure _
  · exact ⟨[], unmoved, .pure left⟩

end

/-! ## Expressions and programs -/

theorem operations_finishes {limit retryLimit : Nat} {expr retry : Parser Expr}
    (sound : expr.Sound .expression)
    (finishes : ∀ {source : Stream}, source.words.length < limit →
      Finishes retry expr source (Derivable .expression))
    (larger : limit ≤ retryLimit) (level : Level) {source : Stream}
    (enough : source.words.length ≤ limit) :
    Finishes (operations retryLimit retry level) (operations limit expr level) source
      (Derivable (.operations level)) := by
  have product {source : Stream} (enough : source.words.length ≤ limit) :
      Finishes (operations retryLimit retry .product) (operations limit expr .product) source
        (Derivable (.operations .product)) :=
    leftChain_finishes (application_sound sound)
      (application_finishes sound finishes larger) rfl larger enough
  have sum {source : Stream} (enough : source.words.length ≤ limit) :
      Finishes (operations retryLimit retry .sum) (operations limit expr .sum) source
        (Derivable (.operations .sum)) :=
    leftChain_finishes (operations_sound sound .product) product rfl larger enough
  have construction {source : Stream} (enough : source.words.length ≤ limit) :
      Finishes (operations retryLimit retry .construction) (operations limit expr .construction)
        source (Derivable (.operations .construction)) :=
    rightChain_finishes (operations_sound sound .sum) sum rfl larger enough
  have comparison {source : Stream} (enough : source.words.length ≤ limit) :
      Finishes (operations retryLimit retry .comparison) (operations limit expr .comparison) source
        (Derivable (.operations .comparison)) :=
    noChain_finishes (operations_sound sound .construction) construction rfl enough
  have conjunction {source : Stream} (enough : source.words.length ≤ limit) :
      Finishes (operations retryLimit retry .conjunction) (operations limit expr .conjunction)
        source (Derivable (.operations .conjunction)) :=
    leftChain_finishes (operations_sound sound .comparison) comparison rfl larger enough
  cases level with
  | disjunction =>
    exact leftChain_finishes (operations_sound sound .conjunction) conjunction rfl larger enough
  | conjunction => exact conjunction enough
  | comparison => exact comparison enough
  | construction => exact construction enough
  | sum => exact sum enough
  | product => exact product enough

/-- More than the number of words is enough as the limit, and more than enough changes nothing. -/
theorem expression_finishes {limit retryLimit : Nat} (larger : limit ≤ retryLimit)
    {source : Stream} (enough : source.words.length < limit) :
    Finishes (expression retryLimit) (expression limit) source (Derivable .expression) := by
  induction limit generalizing retryLimit source with
  | zero => exact absurd enough (Nat.not_lt_zero _)
  | succ limit ih =>
    refine .of_turns expression larger fun retryLimit larger => ?_
    have sound := expression_sound limit
    refine .peekLexeme_bind fun {found middle} _ unmoved => ?_
    -- Nothing is taken yet, but the nesting has used up one of the limit.
    have enough : middle.words.length ≤ limit := by
      rw [unmoved]
      omega
    generalize BindingForm.openedBy? found = form?
    cases form? with
    | none => exact operations_finishes sound (ih larger) larger .disjunction enough
    | some form =>
      refine (bindingForm_finishes sound (ih larger) larger form enough).mono fun words => ?_
      rintro ⟨_, _, derived⟩
      exact (derived.ofApplication .disjunction).derivable

theorem program_finishes {limit retryLimit : Nat} (larger : limit ≤ retryLimit)
    {source : Stream} (enough : source.words.length < limit) :
    Finishes (program retryLimit) (program limit) source (Derivable .expression) := by
  refine .lastPhrase (expression_sound limit) (expression_finishes larger enough)
    Derives.derivable ?_
  intro expr middle ending words derived _ _
  refine .peek_bind fun {found _} _ => ?_
  cases found with
  | none => exact .pure expr
  | some token => exact .reject _ _

/-- A parser of phrases leaves fewer words than it was given. -/
private theorem Sound.shrinks {parser : Parser Expr} {category : Category}
    (sound : parser.Sound category) {source target : Stream} {expr : Expr}
    (success : parser source = .ok expr target) :
    target.words.length < source.words.length := by
  obtain ⟨ending, words, advances, derived, -⟩ := sound _ _ _ success
  exact advances.shorter derived.length_pos

end Parser

namespace Phrase

def Complete : Phrase → List Lexeme → Prop
  | program | expression => Derivable .expression
  | binding _ | application => Derivable .application
  | operations level => Derivable (.operations level)
  | atom => Derivable .atom
  | listRest => fun words => Derivable .atom (.leftBracket :: words)

/-- Any limit above the number of tokens is enough for every phrase. -/
theorem finishes (phrase : Phrase) {limit retryLimit : Nat} (larger : limit ≤ retryLimit)
    {source : Stream} (enough : source.remaining.length < limit) :
    Finishes (phrase.parseWithin retryLimit) (phrase.parseWithin limit) source phrase.Complete := by
  rw [source.length_remaining] at enough
  have atMost := Nat.le_of_lt enough
  have sound := expression_sound limit
  have inner : ∀ {source : Stream}, source.words.length < limit → _ := expression_finishes larger
  cases phrase with
  | program => exact program_finishes larger enough
  | expression => exact expression_finishes larger enough
  | binding form => exact bindingForm_finishes sound inner larger form atMost
  | operations level => exact operations_finishes sound inner larger level atMost
  | application => exact application_finishes sound inner larger atMost
  | atom => exact atom_finishes sound inner larger atMost
  | listRest => exact listRest_finishes sound inner larger enough

theorem parseWithin_eq_parse (phrase : Phrase) {limit : Nat} {source : Stream}
    (enough : source.remaining.length < limit) :
    phrase.parseWithin limit source = phrase.parse source :=
  (phrase.finishes enough (Nat.lt_succ_self _)).same

theorem ends (phrase : Phrase) (source : Stream) :
    Ends source phrase.Complete (phrase.parse source) :=
  (phrase.finishes (Nat.le_refl _) (Nat.lt_succ_self _)).ends

/-- A list that has begun is not complete without a further word. -/
private theorem nonempty_of_listRest {ending : Ending} {words : List Lexeme} {expr : Expr}
    (derived : Derives .atom ending (.leftBracket :: words) expr) : 0 < words.length := by
  cases derived with
  | emptyList => decide
  | list => simp

/-- Every phrase takes a word. -/
theorem shrinks {phrase : Phrase} {source target : Stream} {expr : Expr}
    (success : phrase.parse source = .ok expr target) :
    target.words.length < source.words.length := by
  change phrase.parseWithin (source.remaining.length + 1) source = _ at success
  have sound := expression_sound (source.remaining.length + 1)
  cases phrase with
  | program =>
    obtain ⟨whole, middle, parsed, success⟩ := bind_eq_ok_iff.mp success
    obtain ⟨found, state, peeked, success⟩ := bind_eq_ok_iff.mp success
    have shorter := sound.shrinks parsed
    have length := (peek_ok peeked).2.length_eq
    cases found with
    | some token => cases success
    | none =>
      obtain ⟨rfl, rfl⟩ := pure_eq_ok_iff.mp success
      rw [List.length_nil] at length
      omega
  | expression => exact sound.shrinks success
  | binding form =>
    obtain ⟨taken, advances, derived, -⟩ := bindingForm_sound sound success
    exact advances.shorter derived.length_pos
  | operations level => exact (operations_sound sound level).shrinks success
  | application => exact (application_sound sound).shrinks success
  | atom => exact (atom_sound sound).shrinks success
  | listRest =>
    obtain ⟨taken, advances, derived⟩ := listRest_sound sound success
    exact advances.shorter (nonempty_of_listRest derived)

theorem takes_token {phrase : Phrase} {source target : Stream} {expr : Expr}
    (success : phrase.parse source = .ok expr target) :
    ∃ taken, taken ≠ [] ∧ source.remaining = taken ++ target.remaining := by
  have shorter := shrinks success
  have ends := phrase.ends source
  rw [success] at ends
  cases ends with
  | ok taken advanced =>
    refine ⟨taken, ?_, advanced⟩
    rintro rfl
    simp only [Stream.words, advanced, List.nil_append] at shorter
    omega

theorem not_tooDeep (phrase : Phrase) (source target : Stream) :
    phrase.parse source ≠ .error .tooDeep target := by
  intro failed
  have ends := phrase.ends source
  rw [failed] at ends
  cases ends

end Phrase

/-! ## Texts -/

/-- The error of a text has a place in it, or right behind it. -/
theorem malformed_within {source : String} {cause : Error}
    (failed : parse source = .error (.error cause)) :
    ∃ (fault : SyntaxFault) (position : Nat), cause = .malformed fault (some position) ∧
      position ≤ source.length := by
  obtain ⟨taken, rest, split, reports, -⟩ := decided_of_parse failed 0
  obtain ⟨fault, position, rfl, -, place⟩ := reports.placed split
  refine ⟨fault, position, rfl, ?_⟩
  rw [← String.length_toList]
  obtain ⟨refused, ahead, only⟩ | ⟨-, -, ⟨c, -, spelled⟩ | ⟨atEnd, -⟩⟩ := place
  · have member : refused ∈ (Scan.ofString source).tokens := by
      rw [split]
      exact List.mem_append_right _ (List.mem_of_head? ahead)
    have there := (only refused member).mpr rfl
    have inside := (Scan.placed_ofString source).inside refused member
    omega
  · obtain ⟨inside, -⟩ := List.getElem?_eq_some_iff.mp spelled
    omega
  · exact Nat.le_of_eq (atEnd.trans String.length_toList.symm)

/-- Tokens whose words can be completed begin a program. -/
theorem Completes.accepts {tokens : List Token}
    (completes : Completes (Derivable .expression) (tokens.map Token.lexeme)) :
    ∃ suffix : List Token, (∀ token ∈ suffix, token.lexeme.Valid) ∧
      ∀ endPosition, Accepts endPosition (tokens ++ suffix) := by
  obtain ⟨suffix, valid, derivable⟩ := completes
  refine ⟨suffix.map (⟨·, 0⟩), ?_, fun endPosition => accepts_iff.mpr ?_⟩
  · intro token member
    obtain ⟨word, inside, rfl⟩ := List.mem_map.mp member
    exact valid word inside
  · rw [List.map_append, List.map_map]
    simpa [Function.comp_def] using derivable

theorem Operator.ofSymbol?_symbol (op : Operator) : ofSymbol? op.symbol = some op := by
  cases op <;> rfl

/-- What is looked up in a scanned token is there: its operator, and the value of each digit. -/
private theorem Scan.known_of_mem {source : String} {token : Token}
    (member : token ∈ (ofString source).tokens) :
    (token.kind = .operator → ∃ op, Operator.ofSymbol? token.text = some op) ∧
      (token.kind = .number → token.text ≠ "" ∧
        ∀ c ∈ token.text.toList, ∃ value, digitValue? c = some value) := by
  have valid : token.lexeme.Valid := valid_of_mem member
  rcases token with ⟨lexeme, position⟩
  constructor
  · intro kind
    cases lexeme with
    | operator op => exact ⟨op, op.ofSymbol?_symbol⟩
    | _ => cases kind
  · intro kind
    cases lexeme with
    | number digits =>
      obtain ⟨first, rest, spelled, digit, others⟩ := valid
      refine ⟨?_, fun c inside => ?_⟩
      · rintro rfl
        cases spelled
      · have isDigit : isDigit c = true := by
          rw [Token.text, Lexeme.text, spelled] at inside
          rcases List.mem_cons.mp inside with rfl | later
          · exact digit
          · exact others c later
        exact Option.isSome_iff_exists.mp isDigit
    | _ => cases kind

/-- Parsing a text comes to an end in one of three ways: with an expression, with a syntax error
whose position is in the text or right behind it and ends its message, or at a numeral with too many
digits. Such a numeral was taken in the place of an atom: with fewer digits it would go on as the
beginning of a program. Whatever is looked up on the way is there. Every phrase that is found has
taken a token, and no parser asks for more turns than there are tokens. -/
theorem parsing_comes_to_an_end (source : String) :
    ((∃ expr, parse source = .ok expr) ∨
      (∃ (fault : SyntaxFault) (position : Nat),
        parse source = .error (.error (.malformed fault (some position))) ∧
        position ≤ source.length ∧ (Error.malformed fault (some position)).message =
          fault.message ++ " at " ++ decimal position) ∨
      ∃ taken digits position target,
        parse source = .error (.longNumeral digits.length) ∧
        Phrase.program.parse (.ofString source) = .error (.longNumeral digits.length) target ∧
        (Scan.ofString source).tokens = taken ++ ⟨.number digits, position⟩ :: target.remaining ∧
        numeralLimit < digits.length ∧
        ∀ numeral : String, numeral.length ≤ numeralLimit → ∃ suffix : List Token,
          (∀ token ∈ suffix, token.lexeme.Valid) ∧
          ∀ endPosition, Accepts endPosition (taken ++ ⟨.number numeral, position⟩ :: suffix)) ∧
    (∀ token ∈ (Scan.ofString source).tokens,
      (token.kind = .operator → ∃ op, Operator.ofSymbol? token.text = some op) ∧
      (token.kind = .number → token.text ≠ "" ∧
        ∀ c ∈ token.text.toList, ∃ value, digitValue? c = some value)) ∧
    (∀ cause, (Scan.ofString source).fault = some cause → ∃ (c : Char) (place : Nat),
      cause = .malformed (.strayCharacter c) (some place) ∧ source.toList[place]? = some c) ∧
    (∀ (phrase : Phrase) stream expr target, phrase.parse stream = .ok expr target →
      ∃ taken, taken ≠ [] ∧ stream.remaining = taken ++ target.remaining) ∧
    ∀ (phrase : Phrase) (stream : Stream),
      (∀ target, phrase.parse stream ≠ .error .tooDeep target) ∧
      ∀ limit, stream.remaining.length < limit →
        phrase.parseWithin limit stream = phrase.parse stream := by
  refine ⟨?_, fun token member => Scan.known_of_mem member, ?_, ?_, ?_⟩
  · have ends := Phrase.program.ends (.ofString source)
    generalize ran : Phrase.program.parse (.ofString source) = result at ends
    cases ends with
    | @ok expr => exact .inl ⟨expr, by rw [parse, ran]⟩
    | error cause target =>
      have failed : parse source = .error (.error cause) := by rw [parse, ran]
      obtain ⟨fault, position, rfl, inside⟩ := malformed_within failed
      exact .inr (.inl ⟨fault, position, failed, inside, rfl⟩)
    | @longNumeral digits position target taken advanced long expected =>
      have failed : parse source = .error (.longNumeral digits.length) := by rw [parse, ran]
      refine .inr (.inr ⟨taken, digits, position, target, failed, rfl, advanced, long, ?_⟩)
      intro numeral short
      have completes : Completes (Derivable .expression)
          ((taken ++ [(⟨.number numeral, position⟩ : Token)]).map Token.lexeme) := by
        rw [List.map_append]
        exact expected numeral short
      simpa using completes.accepts
  · intro cause known
    obtain ⟨c, place, rfl, -, spelled, -⟩ := (Scan.placed_ofString source).stray cause known
    exact ⟨c, place, rfl, spelled⟩
  · intro phrase stream expr target success
    exact Phrase.takes_token success
  · intro phrase stream
    exact ⟨phrase.not_tooDeep stream, fun limit enough => phrase.parseWithin_eq_parse enough⟩

end MiniFun
