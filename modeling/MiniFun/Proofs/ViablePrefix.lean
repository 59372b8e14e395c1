import MiniFun.Proofs.FailurePoint
import MiniFun.Proofs.ParserCompleteness

/-! # Syntax errors are reported at the first token that cannot be right

What a parser has taken when it fails can be completed: an identifier where a phrase is missing, and
the words that close what is open. So the tokens in front of a syntax error begin some program. With
the token at the error they begin none. Scanned tokens stand in the order of their positions, so
that the position of the error tells the two apart.
-/

namespace MiniFun

open MiniFun.Parser

/-! ## Words that complete phrases -/

/-- The identifier that stands for any expression. -/
def Lexeme.filler : Lexeme := .ident "x"

def Derivable (category : Category) (words : List Lexeme) : Prop :=
  ∃ ending expr, Derives category ending words expr

theorem Derives.derivable {category : Category} {ending : Ending} {words : List Lexeme}
    {expr : Expr} (derived : Derives category ending words expr) : Derivable category words :=
  ⟨ending, expr, derived⟩

/-- No binding form is left open at the end of an atom. -/
theorem Derives.closed_of_atom {ending : Ending} {words : List Lexeme} {expr : Expr}
    (derived : Derives .atom ending words expr) : ending = .closed := by
  cases derived <;> rfl

theorem derivable_filler (level : Level) : Derivable (.operations level) [.filler] :=
  ⟨.closed, _, (Derives.single (.reference "x")).ofApplication level⟩

/-- A phrase in front of what follows: if it fails, its completion and the closing words reach the
goal; if not, its words are a part of what reaches the goal. -/
theorem Decided.phrase {β : Type} {source : Stream} {goal : List Lexeme → Prop}
    {category : Category} {parser retry : Parser Expr} {next retryNext : Expr → Parser β}
    (sound : parser.Sound category)
    (decided : Decided retry source (Derivable category) (parser source))
    (closing : List Lexeme) (fillers : closing.all Lexeme.isFiller = true)
    (fits : ∀ {ending words expr}, Derives category ending words expr → goal (words ++ closing))
    (after : ∀ {value middle ending words}, Derives category ending words value →
      Stops (category.bound ending) middle.words →
        Decided (retryNext value) middle (fun rest => goal (words ++ rest)) (next value middle)) :
    Decided (retry >>= retryNext) source goal ((parser >>= next) source) := by
  refine .bind (decided.within closing fillers fun words ⟨_, _, derived⟩ => fits derived) ?_
  intro value middle ran
  obtain ⟨ending, words, advances, derived, stops⟩ := sound _ _ _ ran
  exact ⟨words, advances, after derived stops⟩

/-- A phrase that reaches the goal as soon as it is complete. -/
theorem Decided.lastPhrase {β : Type} {source : Stream} {goal : List Lexeme → Prop}
    {category : Category} {parser retry : Parser Expr} {next retryNext : Expr → Parser β}
    (sound : parser.Sound category)
    (decided : Decided retry source (Derivable category) (parser source))
    (fits : ∀ {ending words expr}, Derives category ending words expr → goal words)
    (after : ∀ {value middle ending words}, Derives category ending words value →
      Stops (category.bound ending) middle.words →
        Decided (retryNext value) middle (fun rest => goal (words ++ rest)) (next value middle)) :
    Decided (retry >>= retryNext) source goal ((parser >>= next) source) := by
  refine .phrase sound decided [] rfl (fun derived => ?_) after
  rw [List.append_nil]
  exact fits derived

namespace Parser

section

variable {limit retryLimit : Nat} {expr retry : Parser Expr} (sound : expr.Sound .expression)
  (decided : ∀ source, Decided retry source (Derivable .expression) (expr source))
include sound decided

/-! ## Atoms -/

/-- The items in front are a list of their own, so that nothing is missing between two items. -/
private theorem furtherItems_decided {source : Stream} {ending : Ending} {front : List Lexeme}
    {first : Expr} (head : Derives .expression ending front first) :
    Decided (furtherItems retry retryLimit) source (fun rest => Derivable .items (front ++ rest))
      (furtherItems expr limit source) := by
  induction limit generalizing retryLimit source ending front first with
  | zero => exact .limit nofun
  | succ limit ih =>
    refine .of_turns (furtherItems retry) rfl (fun retryLimit => ?_) retryLimit
    have whole : Completes (fun rest => Derivable .items (front ++ rest)) [] :=
      .of_front (Derives.lastItem head).derivable
    refine .sees_bind whole fun {comma middle} looked => ?_
    cases comma with
    | false => exact .pure []
    | true =>
      refine .bind (.take whole) fun taken => ⟨[.comma], ?_, ?_⟩
      · exact (sees_ok looked).2.after (take_after_sees .comma rfl looked taken)
      · refine .lastPhrase sound (decided _) (fun derived => ?_) fun derived _ => ?_
        · exact (head.moreItems (.lastItem derived)).derivable
        · refine .bind ((ih derived).mono fun words => ?_) fun more => ?_
          · rintro ⟨_, _, items⟩
            exact (head.moreItems items).derivable
          · obtain ⟨rest, _, advances, -⟩ := furtherItems_sound sound derived more
            exact ⟨rest, advances, .pure _⟩

/-- Until the bracket is closed, closing it is what completes the list. -/
private theorem listRest_decided {source : Stream} :
    Decided (listRest retryLimit retry) source (fun rest => Derivable .atom (.leftBracket :: rest))
      (listRest limit expr source) := by
  have empty : Completes (fun rest => Derivable .atom (.leftBracket :: rest)) [] :=
    .with_fillers [.rightBracket] rfl Derives.emptyList.derivable
  refine .sees_bind empty fun {closed middle} looked => ?_
  cases closed with
  | true => exact .expectKind_bind .rightBracket rfl empty (.pure _)
  | false =>
    refine .phrase sound (decided _) [.rightBracket] rfl (fun derived => ?_) fun derived _ => ?_
    · exact (Derives.list (.lastItem derived)).derivable
    · refine .bind ((furtherItems_decided sound decided derived).within [.rightBracket] rfl ?_) ?_
      · rintro words ⟨_, _, items⟩
        rw [← List.append_assoc]
        exact (Derives.list items).derivable
      · intro items middle more
        obtain ⟨rest, _, advances, all⟩ := furtherItems_sound sound derived more
        refine ⟨rest, advances, .expectKind_bind .rightBracket rfl ?_ (.pure _)⟩
        refine .with_fillers [.rightBracket] rfl ?_
        rw [List.nil_append, ← List.append_assoc]
        exact (Derives.list all).derivable

private theorem atom_decided {source : Stream} :
    Decided (atom retryLimit retry) source (Derivable .atom) (atom limit expr source) := by
  have filler : Completes (Derivable .atom) [] :=
    .with_fillers [.filler] rfl (Derives.reference "x").derivable
  refine .take_bind filler fun {found middle} taken => ?_
  cases found with
  | none => exact .inr ⟨_, rfl, rfl, rfl⟩
  | some token =>
    rcases token with ⟨word, position⟩
    -- A word that begins no atom is refused although it was taken.
    cases word with
    | number digits => exact .inl (.numeral digits)
    | ident name => exact .inl (.pure _)
    | keyword word =>
      cases word with
      | trueWord | falseWord => exact .inl (.pure _)
      | _ => exact .inr ⟨_, rfl, rfl, rfl⟩
    | leftParen =>
      refine .inl (.phrase sound (decided _) [.rightParen] rfl ?_ ?_)
      · intro ending words inner derived
        exact (Derives.parentheses derived).derivable
      · intro inner middle ending words derived _
        refine .expectKind_bind .rightParen rfl ?_ (.pure _)
        exact .with_fillers [.rightParen] rfl (Derives.parentheses derived).derivable
    | leftBracket => exact .inl (listRest_decided sound decided)
    | _ => exact .inr ⟨_, rfl, rfl, rfl⟩

/-! ## Binding forms -/

private theorem function_decided {source : Stream} :
    Decided (function retryLimit retry) source (Derivable .application)
      (function limit expr source) := by
  obtain ⟨_, _, filler⟩ := derivable_filler .disjunction
  -- Whatever parameters there are, one more may follow.
  have more : ∀ names : List String,
      Completes (fun rest => Derivable .application (.backslash :: rest)) (names.map .ident) := by
    intro names
    have nonempty : names ++ ["x"] ≠ [] := by simp
    have derived := Derives.function nonempty filler
    rw [List.map_append, List.append_assoc] at derived
    exact .with_fillers [.filler, .arrow, .filler] rfl derived.derivable
  refine .expectKind_bind .backslash rfl ?_ ?_
  · exact .with_fillers [.backslash, .filler, .arrow, .filler] rfl
      (Derives.function (List.cons_ne_nil "x" []) filler).derivable
  intro middle
  refine .bind (.params more) fun {names _} parameters => ⟨_, params_ok parameters, ?_⟩
  cases names with
  | nil => exact .peek_bind (more []) fun peeked => .reject_peeked rfl peeked (more [])
  | cons name names =>
    have nonempty := List.cons_ne_nil name names
    refine .expectKind_bind .arrow rfl ?_ ?_
    · exact .with_fillers [.arrow, .filler] rfl (Derives.function nonempty filler).derivable
    intro middle
    refine .lastPhrase sound (decided _) (fun derived => ?_) fun _ _ => .pure _
    exact (Derives.function nonempty derived).derivable

private theorem definition_decided {source : Stream} :
    Decided (definition retryLimit retry) source (Derivable .application)
      (definition limit expr source) := by
  obtain ⟨_, _, filler⟩ := derivable_filler .disjunction
  have named (name : String) (params : List String) : Derivable .application
      (.keyword .letWord :: .ident name :: (params.map .ident ++
        [.equals, .filler, .keyword .inWord, .filler])) :=
    (Derives.definition name filler filler).derivable
  refine .expectKeyword_bind .letWord ?_ ?_
  · exact .with_fillers [.keyword .letWord, .filler, .equals, .filler, .keyword .inWord, .filler]
      rfl (named "x" [])
  intro middle
  refine .expectIdent_bind ?_ ?_
  · exact .with_fillers [.filler, .equals, .filler, .keyword .inWord, .filler] rfl (named "x" [])
  intro name middle
  refine .bind (.params fun names => ?_) fun {names _} parameters => ⟨_, params_ok parameters, ?_⟩
  · exact .with_fillers [.equals, .filler, .keyword .inWord, .filler] rfl (named name names)
  refine .expectKind_bind .equals rfl ?_ ?_
  · exact .with_fillers [.equals, .filler, .keyword .inWord, .filler] rfl (named name names)
  intro middle
  refine .phrase sound (decided _) [.keyword .inWord, .filler] rfl ?_ ?_
  · intro ending words bound derived
    exact (Derives.definition name derived filler).derivable
  intro bound middle ending words derivedBound stops
  refine .expectKeyword_bind .inWord ?_ ?_
  · exact .with_fillers [.keyword .inWord, .filler] rfl
      (Derives.definition name derivedBound filler).derivable
  intro middle
  refine .lastPhrase sound (decided _) (fun derived => ?_) fun _ _ => .pure _
  exact (Derives.definition name derivedBound derived).derivable

private theorem conditional_decided {source : Stream} :
    Decided (conditional retry) source (Derivable .application) (conditional expr source) := by
  obtain ⟨_, _, filler⟩ := derivable_filler .disjunction
  refine .expectKeyword_bind .ifWord ?_ ?_
  · exact .with_fillers [.keyword .ifWord, .filler, .keyword .thenWord, .filler,
      .keyword .elseWord, .filler] rfl (Derives.conditional filler filler filler).derivable
  intro middle
  refine .phrase sound (decided _)
    [.keyword .thenWord, .filler, .keyword .elseWord, .filler] rfl ?_ ?_
  · intro ending words test derived
    exact (Derives.conditional derived filler filler).derivable
  intro test middle ending words derivedTest stops
  refine .expectKeyword_bind .thenWord ?_ ?_
  · exact .with_fillers [.keyword .thenWord, .filler, .keyword .elseWord, .filler] rfl
      (Derives.conditional derivedTest filler filler).derivable
  intro middle
  refine .phrase sound (decided _) [.keyword .elseWord, .filler] rfl ?_ ?_
  · intro ending words consequent derived
    exact (Derives.conditional derivedTest derived filler).derivable
  intro consequent middle ending words derivedConsequent stops
  refine .expectKeyword_bind .elseWord ?_ ?_
  · exact .with_fillers [.keyword .elseWord, .filler] rfl
      (Derives.conditional derivedTest derivedConsequent filler).derivable
  intro middle
  refine .lastPhrase sound (decided _) (fun derived => ?_) fun _ _ => .pure _
  exact (Derives.conditional derivedTest derivedConsequent derived).derivable

private theorem bindingForm_decided (form : BindingForm) {source : Stream} :
    Decided (bindingForm retryLimit retry form) source (Derivable .application)
      (bindingForm limit expr form source) := by
  cases form with
  | function => exact function_decided sound decided
  | definition => exact definition_decided sound decided
  | conditional => exact conditional_decided sound decided

/-! ## Application -/

/-- The function and the arguments so far are an application of their own. -/
private theorem arguments_decided {count retryCount : Nat} {source : Stream} {front : List Lexeme}
    {function : Expr} (head : Derives .application .closed front function) :
    Decided (arguments (atom retryLimit retry) retryCount function) source
      (fun rest => Derivable .application (front ++ rest))
      (arguments (atom limit expr) count function source) := by
  induction count generalizing retryCount source front function with
  | zero => exact .limit nofun
  | succ count ih =>
    refine .of_turns (arguments (atom retryLimit retry) · function) rfl (fun retryCount => ?_)
      retryCount
    refine .peekLexeme_bind (.of_front head.derivable) fun _ => ?_
    split
    · refine .lastPhrase (atom_sound sound) (atom_decided sound decided) ?_ ?_
      · intro ending words argument derived
        obtain rfl := derived.closed_of_atom
        exact (head.apply derived).derivable
      · intro argument middle ending words derived _
        obtain rfl := derived.closed_of_atom
        refine (ih (head.apply derived)).mono fun rest whole => ?_
        rw [← List.append_assoc]
        exact whole
    · exact .pure function

private theorem application_decided {source : Stream} :
    Decided (application retryLimit retry) source (Derivable .application)
      (application limit expr source) := by
  refine .peekLexeme_bind (.with_fillers [.filler] rfl ?_) fun {found middle} _ => ?_
  · exact (Derives.single (.reference "x")).derivable
  generalize BindingForm.openedBy? found = form?
  cases form? with
  | some form => exact bindingForm_decided sound decided form
  | none =>
    refine .lastPhrase (atom_sound sound) (atom_decided sound decided) ?_ ?_
    · intro ending words function derived
      obtain rfl := derived.closed_of_atom
      exact (Derives.single derived).derivable
    · intro function middle ending words derived _
      obtain rfl := derived.closed_of_atom
      exact arguments_decided sound decided (.single derived)

end

/-! ## Operators -/

section

variable {level : Level} {operand retry : Parser Expr} (sound : operand.Sound level.operand)
  (decided : ∀ source, Decided retry source (Derivable level.operand) (operand source))
include sound decided

/-- Between two operands, all that was taken so far is a phrase of the level. As in the proof that
parsed phrases are derived, an operator ahead shows that the phrase in front of it is closed. -/
private theorem leftOperands_decided (assoc : level.associativity = .left) {limit retryLimit : Nat}
    {source : Stream} {left : Expr} {ending : Ending} {front : List Lexeme}
    (head : Derives (.operations level) ending front left)
    (stops : Stops (level.operand.bound ending) source.words) :
    Decided (leftOperands level retry retryLimit left) source
      (fun rest => Derivable (.operations level) (front ++ rest))
      (leftOperands level operand limit left source) := by
  induction limit generalizing retryLimit source left ending front with
  | zero => exact .limit nofun
  | succ limit ih =>
    refine .of_turns (leftOperands level retry · left) rfl (fun retryLimit => ?_) retryLimit
    refine .bind (.operator? level (.of_front head.derivable)) fun looked => ?_
    obtain ⟨op, rfl, atLevel, advance⟩ | ⟨rfl, unmoved, -⟩ := operator?_ok looked
    · rw [advance.words_eq] at stops
      obtain rfl := stops.closed_of_operator
      refine ⟨_, advance, .lastPhrase sound (decided _) ?_ ?_⟩
      · intro last words right derived
        exact (head.toLeft assoc atLevel derived).derivable
      · intro right middle last words derived after
        refine (ih (head.toLeft assoc atLevel derived) after).mono fun rest whole => ?_
        rw [List.append_assoc] at whole
        exact whole
    · exact ⟨[], unmoved, .pure left⟩

private theorem leftChain_decided (assoc : level.associativity = .left) {limit retryLimit : Nat}
    {source : Stream} :
    Decided (leftChain level retry retryLimit) source (Derivable (.operations level))
      (leftChain level operand limit source) := by
  refine .lastPhrase sound (decided _) (fun derived => ?_) fun derived stops => ?_
  · exact (Derives.operand derived).derivable
  · exact leftOperands_decided sound decided assoc (.operand derived) stops

/-- Here the operand in front is the phrase that is complete, and the loop gives its right side. -/
private theorem rightOperands_decided (assoc : level.associativity = .right)
    {limit retryLimit : Nat} {source : Stream} {left : Expr} {ending : Ending} {front : List Lexeme}
    (head : Derives level.operand ending front left)
    (stops : Stops (level.operand.bound ending) source.words) :
    Decided (rightOperands level retry retryLimit left) source
      (fun rest => Derivable (.operations level) (front ++ rest))
      (rightOperands level operand limit left source) := by
  induction limit generalizing retryLimit source left ending front with
  | zero => exact .limit nofun
  | succ limit ih =>
    refine .of_turns (rightOperands level retry · left) rfl (fun retryLimit => ?_) retryLimit
    refine .bind (.operator? level (.of_front (Derives.operand head).derivable)) fun looked => ?_
    obtain ⟨op, rfl, atLevel, advance⟩ | ⟨rfl, unmoved, -⟩ := operator?_ok looked
    · rw [advance.words_eq] at stops
      obtain rfl := stops.closed_of_operator
      refine ⟨_, advance, .lastPhrase sound (decided _) ?_ ?_⟩
      · intro last words right derived
        exact (head.toRight assoc atLevel (.operand derived)).derivable
      · intro next middle last words derived after
        refine .bind ((ih derived after).mono ?_) fun more => ?_
        · rintro rest ⟨_, _, whole⟩
          exact (head.toRight assoc atLevel whole).derivable
        · obtain ⟨_, rest, advances, -⟩ := rightOperands_sound sound assoc derived after more
          exact ⟨rest, advances, .pure _⟩
    · exact ⟨[], unmoved, .pure left⟩

private theorem rightChain_decided (assoc : level.associativity = .right) {limit retryLimit : Nat}
    {source : Stream} :
    Decided (rightChain level retry retryLimit) source (Derivable (.operations level))
      (rightChain level operand limit source) := by
  refine .lastPhrase sound (decided _) (fun derived => ?_) fun derived stops => ?_
  · exact (Derives.operand derived).derivable
  · exact rightOperands_decided sound decided assoc derived stops

/-- A second operator is refused behind a phrase that is complete. -/
private theorem noChain_decided (assoc : level.associativity = .none) {source : Stream} :
    Decided (noChain level retry) source (Derivable (.operations level))
      (noChain level operand source) := by
  refine .lastPhrase sound (decided _) (fun derived => (Derives.operand derived).derivable) ?_
  intro left middle _ front derived stops
  refine .bind (.operator? level (.of_front (Derives.operand derived).derivable)) fun looked => ?_
  obtain ⟨op, rfl, atLevel, advance⟩ | ⟨rfl, unmoved, -⟩ := operator?_ok looked
  · rw [advance.words_eq] at stops
    obtain rfl := stops.closed_of_operator
    refine ⟨_, advance, .lastPhrase sound (decided _) ?_ ?_⟩
    · intro last words right derivedRight
      exact (derived.once assoc atLevel derivedRight).derivable
    · intro right behind last words derivedRight after
      have whole : Completes (fun rest => Derivable (.operations level)
          (front ++ ([.operator op] ++ (words ++ rest)))) [] := by
        refine .with_fillers [] rfl ?_
        rw [List.append_nil, List.append_nil]
        exact (derived.once assoc atLevel derivedRight).derivable
      refine .peek_bind whole fun {second final} peeked => ?_
      generalize second.map Token.lexeme = word
      split
      · split
        · exact .reject_peeked rfl peeked whole
        · exact .pure _
      · exact .pure _
  · exact ⟨[], unmoved, .pure left⟩

end

/-! ## Expressions and programs -/

theorem operations_decided {limit retryLimit : Nat} {expr retry : Parser Expr}
    (sound : expr.Sound .expression)
    (decided : ∀ source, Decided retry source (Derivable .expression) (expr source))
    (level : Level) (source : Stream) :
    Decided (operations retryLimit retry level) source (Derivable (.operations level))
      (operations limit expr level source) := by
  have product (source : Stream) : Decided (operations retryLimit retry .product) source
      (Derivable (.operations .product)) (operations limit expr .product source) :=
    leftChain_decided (application_sound sound) (fun _ => application_decided sound decided) rfl
  have sum (source : Stream) : Decided (operations retryLimit retry .sum) source
      (Derivable (.operations .sum)) (operations limit expr .sum source) :=
    leftChain_decided (operations_sound sound .product) product rfl
  have construction (source : Stream) : Decided (operations retryLimit retry .construction) source
      (Derivable (.operations .construction)) (operations limit expr .construction source) :=
    rightChain_decided (operations_sound sound .sum) sum rfl
  have comparison (source : Stream) : Decided (operations retryLimit retry .comparison) source
      (Derivable (.operations .comparison)) (operations limit expr .comparison source) :=
    noChain_decided (operations_sound sound .construction) construction rfl
  have conjunction (source : Stream) : Decided (operations retryLimit retry .conjunction) source
      (Derivable (.operations .conjunction)) (operations limit expr .conjunction source) :=
    leftChain_decided (operations_sound sound .comparison) comparison rfl
  cases level with
  | disjunction => exact leftChain_decided (operations_sound sound .conjunction) conjunction rfl
  | conjunction => exact conjunction source
  | comparison => exact comparison source
  | construction => exact construction source
  | sum => exact sum source
  | product => exact product source

theorem expression_decided (limit retryLimit : Nat) (source : Stream) :
    Decided (expression retryLimit) source (Derivable .expression) (expression limit source) := by
  induction limit generalizing retryLimit source with
  | zero => exact .limit nofun
  | succ limit ih =>
    refine .of_turns expression rfl (fun retryLimit => ?_) retryLimit
    have sound := expression_sound limit
    refine .peekLexeme_bind (.with_fillers [.filler] rfl (derivable_filler _)) fun {found _} _ => ?_
    generalize BindingForm.openedBy? found = form?
    cases form? with
    | none => exact operations_decided sound (ih retryLimit) .disjunction _
    | some form =>
      refine (bindingForm_decided sound (ih retryLimit) form).mono fun words => ?_
      rintro ⟨_, _, derived⟩
      exact (derived.ofApplication .disjunction).derivable

theorem program_decided (limit retryLimit : Nat) (source : Stream) :
    Decided (program retryLimit) source (Derivable .expression) (program limit source) := by
  have sound := expression_sound limit
  refine .lastPhrase sound (expression_decided limit retryLimit source) Derives.derivable ?_
  intro expr middle ending words derived _
  have whole : Completes (fun rest => Derivable .expression (words ++ rest)) [] :=
    .of_front derived.derivable
  refine .peek_bind whole fun {found _} peeked => ?_
  cases found with
  | none => exact .pure expr
  | some token => exact .reject_peeked rfl peeked whole

end Parser

/-! ## Positions of tokens -/

/-- The tokens of a scan of the characters from the position on stand in order and inside of them. A
fault is a character behind all tokens. -/
structure Scan.Placed (position : Nat) (chars : List Char) (scan : Scan) : Prop where
  inside : ∀ token ∈ scan.tokens,
    position ≤ token.position ∧ token.position < position + chars.length
  ordered : scan.tokens.Pairwise fun first second => first.position < second.position
  stray : ∀ cause, scan.fault = some cause → ∃ (c : Char) (place : Nat),
    cause = .malformed (.strayCharacter c) (some place) ∧ position ≤ place ∧
      chars[place - position]? = some c ∧ ∀ token ∈ scan.tokens, token.position < place

namespace Scan

private theorem getElem?_behind {position place : Nat} {c : Char} {rest : List Char}
    (later : position + 1 ≤ place) :
    (c :: rest)[place - position]? = rest[place - (position + 1)]? := by
  have shifted : place - position = place - (position + 1) + 1 := by omega
  rw [shifted, List.getElem?_cons_succ]

theorem Placed.behind {position : Nat} {rest : List Char} {scan : Scan}
    (placed : scan.Placed (position + 1) rest) (c : Char) : scan.Placed position (c :: rest) where
  inside token member := by
    have := placed.inside token member
    rw [List.length_cons]
    omega
  ordered := placed.ordered
  stray cause known := by
    obtain ⟨found, place, rfl, later, spelled, front⟩ := placed.stray cause known
    exact ⟨found, place, rfl, by omega, (getElem?_behind later).trans spelled, front⟩

theorem Placed.push {position : Nat} {rest : List Char} {scan : Scan}
    (placed : scan.Placed (position + 1) rest) (c : Char) (lexeme : Lexeme) :
    (scan.push ⟨lexeme, position⟩).Placed position (c :: rest) where
  inside := List.forall_mem_cons.mpr ⟨by simp, (placed.behind c).inside⟩
  ordered := List.pairwise_cons.mpr
    ⟨fun token member => (placed.inside token member).1, placed.ordered⟩
  stray cause known := by
    obtain ⟨found, place, rfl, later, spelled, front⟩ := placed.stray cause known
    exact ⟨found, place, rfl, by omega, (getElem?_behind later).trans spelled,
      List.forall_mem_cons.mpr ⟨later, front⟩⟩

theorem placed_ofCharsFrom (position skip : Nat) (chars : List Char) :
    (ofCharsFrom position skip chars).Placed position chars := by
  fun_induction ofCharsFrom position skip chars with
  | case1 =>
    refine ⟨List.forall_mem_nil _, .nil, ?_⟩
    intro _ known
    cases known
  | case2 _ _ _ _ ih | case3 _ _ _ _ ih | case5 _ _ _ _ _ _ _ ih => exact ih.behind _
  | case4 position c rest =>
    refine ⟨List.forall_mem_nil _, .nil, ?_⟩
    intro _ known
    cases known
    exact ⟨c, position, rfl, Nat.le_refl _, by simp, List.forall_mem_nil _⟩
  | case6 position c rest _ lexeme found following ih => exact ih.push c lexeme

theorem placed_ofString (source : String) : (ofString source).Placed 0 source.toList :=
  placed_ofCharsFrom 0 0 source.toList

end Scan

/-! ## Errors of whole texts -/

/-- The tokens are a program. Where the input ends does not matter to that, but it is a part of the
stream. -/
def Accepts (endPosition : Int) (tokens : List Token) : Prop :=
  ∃ expr target, Phrase.program.parse (.ofScan ⟨tokens, none⟩ endPosition) = .ok expr target

theorem accepts_iff {endPosition : Int} {tokens : List Token} :
    Accepts endPosition tokens ↔ Derivable .expression (tokens.map Token.lexeme) := by
  constructor
  · rintro ⟨expr, accepted⟩
    obtain ⟨ending, derived⟩ := (parse_program_iff rfl).mp accepted
    exact derived.derivable
  · rintro ⟨ending, expr, derived⟩
    exact ⟨expr, (parse_program_iff rfl).mpr ⟨ending, derived⟩⟩

def Token.before (position : Nat) (tokens : List Token) : List Token :=
  tokens.filter (·.position < position)

private theorem Token.before_eq_self {position : Nat} {tokens : List Token}
    (front : ∀ token ∈ tokens, token.position < position) : before position tokens = tokens := by
  refine List.filter_eq_self.mpr fun token member => ?_
  simpa using front token member

section

variable {taken behind : List Token} {refused : Token}
  (ordered : (taken ++ refused :: behind).Pairwise
    fun first second => first.position < second.position)
include ordered

/-- In tokens that stand in order, those before one of them are those in front of it. -/
private theorem Token.before_eq_front :
    before refused.position (taken ++ refused :: behind) = taken := by
  obtain ⟨-, fromRefused, across⟩ := List.pairwise_append.mp ordered
  have front : before refused.position taken = taken :=
    before_eq_self fun token member => across token member refused (.head _)
  have rest : before refused.position (refused :: behind) = [] := by
    refine List.filter_eq_nil_iff.mpr fun token member => ?_
    obtain rfl | later := List.mem_cons.mp member
    · simp
    · have := (List.pairwise_cons.mp fromRefused).1 token later
      simp only [decide_eq_true_eq]
      omega
  calc
    before refused.position (taken ++ refused :: behind)
      = before refused.position taken ++ before refused.position (refused :: behind) :=
        List.filter_append ..
    _ = taken := by rw [front, rest, List.append_nil]

/-- In tokens that stand in order, no other token has the position of one of them. -/
private theorem Token.eq_of_position {token : Token} (member : token ∈ taken ++ refused :: behind)
    (same : token.position = refused.position) : token = refused := by
  obtain ⟨-, fromRefused, across⟩ := List.pairwise_append.mp ordered
  obtain front | rest := List.mem_append.mp member
  · have := across token front refused (.head _)
    omega
  · obtain rfl | later := List.mem_cons.mp rest
    · rfl
    · have := (List.pairwise_cons.mp fromRefused).1 token later
      omega

end

theorem Error.position_unique {fault other : SyntaxFault} {position place : Nat}
    (same : Error.malformed fault (some position) = .malformed other (some place)) :
    position = place := by
  injection same with _ positions
  exact Int.ofNat.inj (Option.some.inj positions)

/-- Where an error in a text was reported. The tokens before the position are those that were taken.
What stands there is the token that was refused, a stray character or the end of the text. -/
theorem Stream.Reports.placed {source : String} {cause : Error} {taken rest : List Token}
    (reports : (Stream.ofString source).Reports cause rest)
    (split : (Scan.ofString source).tokens = taken ++ rest) :
    ∃ (fault : SyntaxFault) (position : Nat), cause = .malformed fault (some position) ∧
      Token.before position (Scan.ofString source).tokens = taken ∧
      ((∃ refused, rest.head? = some refused ∧ ∀ token ∈ (Scan.ofString source).tokens,
          token.position = position ↔ token = refused) ∨
        (∀ token ∈ (Scan.ofString source).tokens, token.position < position) ∧ rest = [] ∧
          ((∃ c, (Scan.ofString source).fault =
              some (.malformed (.strayCharacter c) (some position)) ∧
              source.toList[position]? = some c) ∨
            position = source.length ∧ (Scan.ofString source).fault = none)) := by
  have placed := Scan.placed_ofString source
  cases reports with
  | @token fault _ refused behind =>
    have ordered := placed.ordered
    rw [split] at ordered ⊢
    refine ⟨fault, refused.position, rfl, Token.before_eq_front ordered, .inl ⟨refused, rfl, ?_⟩⟩
    intro token member
    exact ⟨Token.eq_of_position ordered member, fun same => by rw [same]⟩
  | @ending fault _ sound =>
    have front : ∀ token ∈ (Scan.ofString source).tokens, token.position < source.length := by
      intro token member
      have := (placed.inside token member).2
      rw [← String.length_toList]
      omega
    refine ⟨fault, source.length, rfl, ?_, .inr ⟨front, rfl, .inr ⟨rfl, sound⟩⟩⟩
    rw [Token.before_eq_self front, split, List.append_nil]
  | raised known =>
    obtain ⟨c, place, rfl, -, spelled, front⟩ := placed.stray cause known
    refine ⟨.strayCharacter c, place, rfl, ?_, .inr ⟨front, rfl, .inl ⟨c, known, spelled⟩⟩⟩
    rw [Token.before_eq_self front, split, List.append_nil]

/-- How the error of a text was decided, when other tokens are parsed within the given limit. -/
theorem decided_of_parse {source : String} {cause : Error}
    (failed : parse source = .error (.error cause)) (retryLimit : Nat) :
    ∃ taken rest, (Scan.ofString source).tokens = taken ++ rest ∧
      (Stream.ofString source).Reports cause rest ∧
      Completes (Derivable .expression) (taken.map Token.lexeme) ∧
      ∀ token, rest.head? = some token → ∀ (other : Stream) left,
        other.remaining = taken ++ token :: left →
          ∀ expr target, Parser.program retryLimit other ≠ .ok expr target := by
  have decided := program_decided ((Stream.ofString source).remaining.length + 1) retryLimit
    (Stream.ofString source)
  have ran : ∃ target, Parser.program ((Stream.ofString source).remaining.length + 1)
      (Stream.ofString source) = .error (.error cause) target := by
    rw [parse] at failed
    split at failed
    · cases failed
    · rename_i target ran
      cases failed
      exact ⟨target, ran⟩
  obtain ⟨target, ran⟩ := ran
  rw [ran] at decided
  cases decided with
  | error taken advanced reports completes refuses =>
    exact ⟨taken, _, advanced, reports, completes,
      fun token ahead other left begins expr target => refuses ahead begins⟩
  | limit noError => exact (noError cause rfl).elim

/-- The error of a text is a syntax error with a position, worded by the parser itself. -/
theorem malformed_of_parse {source : String} {cause : Error}
    (failed : parse source = .error (.error cause)) :
    ∃ (fault : SyntaxFault) (position : Int), cause = .malformed fault (some position) ∧
      fault.isReported = false := by
  obtain ⟨taken, rest, -, reports, -⟩ := decided_of_parse failed 0
  cases reports with
  | token own refused behind => exact ⟨_, _, rfl, own⟩
  | ending own sound => exact ⟨_, _, rfl, own⟩
  | raised known =>
    obtain ⟨c, place, rfl, -⟩ := (Scan.placed_ofString source).stray cause known
    exact ⟨_, _, rfl, rfl⟩

/-- A syntax error has a position. The tokens in front of it begin a program, completed with valid
words. If there is a token at the position, no program begins with the two together. Otherwise
there is a character with which no word begins, or the text has ended and its tokens are no
program. -/
theorem syntax_errors_at_first_wrong_token (source : String) (cause : Error)
    (failed : parse source = .error (.error cause)) :
    ∃ (fault : SyntaxFault) (position : Nat), cause = .malformed fault (some position) ∧
      let scan := Scan.ofString source
      let front := Token.before position scan.tokens
      (∃ suffix : List Token, (∀ token ∈ suffix, token.lexeme.Valid) ∧
        ∀ endPosition, Accepts endPosition (front ++ suffix)) ∧
      (∀ token ∈ scan.tokens, token.position = position →
        ∀ suffix endPosition, ¬ Accepts endPosition (front ++ token :: suffix)) ∧
      ((∀ token ∈ scan.tokens, token.position ≠ position) →
        (∃ c, scan.fault = some (.malformed (.strayCharacter c) (some position)) ∧
          source.toList[position]? = some c) ∨
        (position = source.length ∧ scan.fault = none ∧ scan.tokens = front ∧
          ∀ endPosition, ¬ Accepts endPosition front)) := by
  obtain ⟨taken, rest, split, reports, completes, -⟩ := decided_of_parse failed 0
  obtain ⟨fault, position, rfl, rfl, place⟩ := reports.placed split
  refine ⟨fault, position, rfl, ?_, ?_, ?_⟩
  · obtain ⟨suffix, valid, derivable⟩ := completes
    refine ⟨suffix.map (⟨·, 0⟩), ?_, fun endPosition => accepts_iff.mpr ?_⟩
    · intro token member
      obtain ⟨word, inside, rfl⟩ := List.mem_map.mp member
      exact valid word inside
    · rw [List.map_append, List.map_map]
      simpa [Function.comp_def] using derivable
  · rintro token member there suffix endPosition ⟨expr, target, accepted⟩
    -- The other tokens are parsed within a limit of their own.
    let other := Stream.ofScan
      ⟨Token.before position (Scan.ofString source).tokens ++ token :: suffix, none⟩ endPosition
    obtain ⟨_, _, split, reports, -, refuses⟩ :=
      decided_of_parse failed (other.remaining.length + 1)
    obtain ⟨_, samePosition, known, rfl, place⟩ := reports.placed split
    obtain rfl := Error.position_unique known
    obtain ⟨refused, ahead, only⟩ | ⟨front, -⟩ := place
    · obtain rfl := (only token member).mp there
      exact refuses token ahead other suffix rfl expr target accepted
    · exact Nat.ne_of_lt (front token member) there
  · intro nothing
    obtain ⟨refused, ahead, only⟩ | ⟨-, rfl, stray | ⟨atEnd, sound⟩⟩ := place
    · have member : refused ∈ (Scan.ofString source).tokens := by
        rw [split]
        exact List.mem_append_right _ (List.mem_of_head? ahead)
      exact (nothing refused member ((only refused member).mpr rfl)).elim
    · exact .inl stray
    · rw [List.append_nil] at split
      refine .inr ⟨atEnd, sound, split, fun endPosition accepted => ?_⟩
      have whole : (Stream.ofString source).words =
          (Token.before position (Scan.ofString source).tokens).map Token.lexeme := by
        rw [← split]
        rfl
      obtain ⟨ending, expr, derived⟩ := accepts_iff.mp accepted
      obtain ⟨target, success⟩ := Denotes.parse ⟨ending, derived⟩ whole sound
      rw [parse, success] at failed
      cases failed

/-- The closing parenthesis is refused before the stray character behind it is come across. The
identifier in front of it begins a program. -/
theorem syntax_errors_at_first_wrong_token_before_stray_character :
    parse "x)$" = .error (.error (.malformed (.unexpected (some ")")) (some 1))) ∧
      Scan.ofString "x)$" = ⟨[⟨.ident "x", 0⟩, ⟨.rightParen, 1⟩],
        some (.malformed (.strayCharacter '$') (some 2))⟩ ∧
      (∃ suffix : List Token, (∀ token ∈ suffix, token.lexeme.Valid) ∧
        ∀ endPosition, Accepts endPosition ([⟨.ident "x", 0⟩] ++ suffix)) ∧
      ∀ suffix endPosition,
        ¬ Accepts endPosition ([⟨.ident "x", 0⟩] ++ ⟨.rightParen, 1⟩ :: suffix) := by
  have failed : parse "x)$" =
      .error (.error (.malformed (.unexpected (some ")")) (some 1))) := by rfl
  have scanned : Scan.ofString "x)$" = ⟨[⟨.ident "x", 0⟩, ⟨.rightParen, 1⟩],
      some (.malformed (.strayCharacter '$') (some 2))⟩ := by decide +kernel
  obtain ⟨_, position, known, begins, hopeless, -⟩ :=
    syntax_errors_at_first_wrong_token "x)$" _ failed
  obtain rfl : 1 = position := Error.position_unique known
  rw [scanned] at begins hopeless
  exact ⟨failed, scanned, begins, hopeless ⟨.rightParen, 1⟩ (by simp) rfl⟩

end MiniFun
