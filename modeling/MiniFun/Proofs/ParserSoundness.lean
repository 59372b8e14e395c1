import MiniFun.Proofs.Grammar
import MiniFun.Proofs.StreamWords

/-! # Every parsed phrase is derived

A parser that succeeds has taken the words of a phrase that denotes its result, and it has taken as
many as it could: the next word cannot continue the phrase. The second half is what makes the first
one go through. A level goes on after an operand only if an operator of the level is ahead, and the
operand was then no trailing phrase, since a trailing phrase stops before no operator at all.

How far a word reaches back is a number, its strength: that of its level for an operator, and a
greater one for a word that begins an argument. A closed phrase can be continued by the words that
are at least as strong as its category, a trailing phrase by all words that have a strength.
-/

namespace MiniFun

/-- The position of the level in the table, the loosest first. -/
def Level.strength : Level → Nat
  | disjunction => 0
  | conjunction => 1
  | comparison => 2
  | construction => 3
  | sum => 4
  | product => 5

theorem Level.strength_inj {first second : Level} :
    first.strength = second.strength ↔ first = second := by
  cases first <;> cases second <;> simp [strength]

theorem Level.strength_lt (level : Level) : level.strength < 6 := by
  cases level <;> decide

/-- How tightly the parts of a phrase hold together. -/
def Category.strength : Category → Nat
  | operations level => level.strength
  | application => 6
  | atom => 7
  | items => 0

theorem Level.strength_operand (level : Level) : level.operand.strength = level.strength + 1 := by
  cases level <;> rfl

/-- How tightly a word holds to the phrase in front of it; `none` if it ends every phrase. -/
def Lexeme.strength? : Lexeme → Option Nat
  | .operator op => some op.level.strength
  | word => if word.startsAtom then some Category.application.strength else none

theorem Lexeme.strength?_of_startsAtom {word : Lexeme} (starts : word.startsAtom = true) :
    word.strength? = some Category.application.strength := by
  unfold strength?
  split
  · cases starts
  · rw [if_pos starts]

private theorem Lexeme.strength?_eq_some {word : Lexeme} {strength : Nat}
    (known : word.strength? = some strength) :
    (∃ op, word = .operator op ∧ strength = op.level.strength) ∨
      (word.startsAtom = true ∧ strength = Category.application.strength) := by
  unfold strength? at known
  split at known
  · exact .inl ⟨_, rfl, (Option.some.inj known).symm⟩
  · split at known
    · exact .inr ⟨‹_›, (Option.some.inj known).symm⟩
    · cases known

/-- The least strength with which a word continues a phrase that ends in the given way. -/
def Category.bound (category : Category) : Ending → Nat
  | .closed => category.strength
  | .trailing => 0

@[simp]
theorem Category.bound_expression (ending : Ending) : Category.expression.bound ending = 0 := by
  cases ending <;> rfl

theorem Category.bound_le (category : Category) (ending : Ending) :
    category.bound ending ≤ category.strength := by
  cases ending with
  | closed => exact Nat.le_refl _
  | trailing => exact Nat.zero_le _

theorem Level.bound_le_operand (level : Level) (ending : Ending) :
    (Category.operations level).bound ending ≤ level.operand.bound ending := by
  cases ending with
  | closed =>
    change level.strength ≤ level.operand.strength
    rw [level.strength_operand]
    exact Nat.le_succ _
  | trailing => exact Nat.le_refl _

/-- The first of the words is weaker than the bound, if it has a strength at all. -/
def Stops (bound : Nat) (words : List Lexeme) : Prop :=
  ∀ word strength, words.head? = some word → word.strength? = some strength → strength < bound

namespace Stops

theorem mono {bound weaker : Nat} {words : List Lexeme} (stops : Stops bound words)
    (le : bound ≤ weaker) : Stops weaker words :=
  fun word strength first known => Nat.lt_of_lt_of_le (stops word strength first known) le

/-- Words that have no strength end every phrase. -/
theorem of_ender {word : Lexeme} {words : List Lexeme} {bound : Nat}
    (ender : word.strength? = none) : Stops bound (word :: words) := by
  intro first strength same known
  obtain rfl := Option.some.inj same
  rw [ender] at known
  cases known

/-- No word at all binds more tightly than an argument. -/
theorem atom (words : List Lexeme) : Stops Category.atom.strength words := by
  intro word strength _ known
  obtain ⟨op, rfl, rfl⟩ | ⟨_, rfl⟩ := Lexeme.strength?_eq_some known
  · exact Nat.lt_succ_of_lt op.level.strength_lt
  · exact Nat.lt_succ_self _

/-- Where no argument follows, only operators could continue an application. -/
private theorem ofNoAtom {words : List Lexeme}
    (noAtom : ¬ words.head?.any Lexeme.startsAtom = true) :
    Stops Category.application.strength words := by
  intro word strength first known
  obtain ⟨op, rfl, rfl⟩ | ⟨starts, rfl⟩ := Lexeme.strength?_eq_some known
  · exact op.level.strength_lt
  · exact (noAtom (by rw [first]; exact starts)).elim

theorem noAtom {words : List Lexeme} (stops : Stops Category.application.strength words) :
    ¬ words.head?.any Lexeme.startsAtom = true := by
  rcases words with _ | ⟨word, rest⟩
  · nofun
  · intro starts
    have starts : word.startsAtom = true := starts
    exact Nat.lt_irrefl _ (stops word _ rfl (Lexeme.strength?_of_startsAtom starts))

theorem noOperator {level : Level} {words : List Lexeme} (stops : Stops level.strength words) :
    ∀ op, words.head? = some (.operator op) → op.level ≠ level := by
  rintro op first rfl
  exact Nat.lt_irrefl _ (stops _ _ first rfl)

/-- An operator ends the operands of its level. -/
theorem operand_operator (op : Operator) (words : List Lexeme) :
    Stops (op.level.operand.bound .closed) (.operator op :: words) := by
  intro word strength first known
  obtain rfl := Option.some.inj first
  obtain rfl := Option.some.inj known
  change op.level.strength < op.level.operand.strength
  rw [op.level.strength_operand]
  exact Nat.lt_succ_self _

/-- Where an operator follows a phrase, the phrase is closed and the operator is weaker. -/
theorem closed_of_operator {category : Category} {ending : Ending} {op : Operator}
    {words : List Lexeme} (stops : Stops (category.bound ending) (.operator op :: words)) :
    ending = .closed := by
  cases ending with
  | closed => rfl
  | trailing => exact (Nat.not_lt_zero _ (stops _ _ rfl rfl)).elim

/-- An operand without an operator of the level behind it is all there is at this level. -/
private theorem ofOperand {level : Level} {ending : Ending} {words : List Lexeme}
    (stops : Stops (level.operand.bound ending) words)
    (other : ∀ op, words.head? = some (.operator op) → op.level ≠ level) :
    Stops ((Category.operations level).bound ending) words := by
  cases ending with
  | trailing => exact stops
  | closed =>
    intro word strength first known
    have weaker : strength < level.operand.strength := stops word strength first known
    rw [level.strength_operand] at weaker
    change strength < level.strength
    obtain ⟨op, rfl, rfl⟩ | ⟨_, rfl⟩ := Lexeme.strength?_eq_some known
    · have different : op.level.strength ≠ level.strength :=
        fun same => other op first (Level.strength_inj.mp same)
      omega
    · have below := level.strength_lt
      change 6 < level.strength + 1 at weaker
      omega

end Stops

namespace Parser

/-- Whatever the parser takes is a phrase of the category, as long as it can be. -/
def Sound (parser : Parser Expr) (category : Category) : Prop :=
  ∀ source expr target, parser source = .ok expr target →
    ∃ ending taken, source.Advances target taken ∧ Derives category ending taken expr ∧
      Stops (category.bound ending) target.words

private theorem numeral_sound {digits : String} {source target : Stream} {result : Expr}
    (success : numeral digits source = .ok result target) :
    source = target ∧ Derives .atom .closed [.number digits] result := by
  unfold numeral at success
  cases readable : Text.readNumeral? digits.toList with
  | none => rw [readable] at success; cases success
  | some value =>
    rw [readable] at success
    obtain ⟨rfl, rfl⟩ := pure_eq_ok_iff.mp success
    exact ⟨rfl, .numeral readable⟩

section

variable {limit : Nat} {expr : Parser Expr} (sound : expr.Sound .expression)
include sound

/-! ## Atoms -/

/-- The items behind the first one, each with a comma in front. -/
theorem furtherItems_sound {source target : Stream} {first : Expr} {items : List Expr}
    {ending : Ending} {front : List Lexeme} (head : Derives .expression ending front first)
    (success : furtherItems expr limit source = .ok items target) :
    ∃ taken last, source.Advances target taken ∧
      Derives .items last (front ++ taken) (.ofItems (first :: items)) := by
  induction limit generalizing source first items ending front with
  | zero => cases success
  | succ limit ih =>
    obtain ⟨comma, middle, looked, result⟩ := bind_eq_ok_iff.mp success
    cases comma with
    | true =>
      obtain ⟨token, state, taken, result⟩ := bind_eq_ok_iff.mp result
      obtain ⟨item, behind, parsed, result⟩ := bind_eq_ok_iff.mp result
      obtain ⟨others, final, more, result⟩ := bind_eq_ok_iff.mp result
      obtain ⟨rfl, rfl⟩ := pure_eq_ok_iff.mp result
      obtain ⟨kind, words, advance, derived, -⟩ := sound _ _ _ parsed
      obtain ⟨rest, last, further, items⟩ := ih derived more
      exact ⟨.comma :: (words ++ rest), last,
        (take_after_sees .comma rfl looked taken).trans (advance.trans further), .moreItems head items⟩
    | false =>
      obtain ⟨rfl, rfl⟩ := pure_eq_ok_iff.mp result
      exact ⟨[], ending, (sees_ok looked).2, by rw [List.append_nil]; exact .lastItem head⟩

theorem listRest_sound {source target : Stream} {result : Expr}
    (success : listRest limit expr source = .ok result target) :
    ∃ taken, source.Advances target taken ∧
      Derives .atom .closed (.leftBracket :: taken) result := by
  obtain ⟨empty, middle, looked, result⟩ := bind_eq_ok_iff.mp success
  cases empty with
  | true =>
    obtain ⟨_, state, closed, result⟩ := bind_eq_ok_iff.mp result
    obtain ⟨rfl, rfl⟩ := pure_eq_ok_iff.mp result
    exact ⟨_, (sees_ok looked).2.trans (expectKind_ok .rightBracket rfl closed), .emptyList⟩
  | false =>
    obtain ⟨first, state, parsed, result⟩ := bind_eq_ok_iff.mp result
    obtain ⟨items, behind, more, result⟩ := bind_eq_ok_iff.mp result
    obtain ⟨_, final, closed, result⟩ := bind_eq_ok_iff.mp result
    obtain ⟨rfl, rfl⟩ := pure_eq_ok_iff.mp result
    obtain ⟨kind, words, advance, derived, -⟩ := sound _ _ _ parsed
    obtain ⟨rest, last, further, all⟩ := furtherItems_sound sound derived more
    refine ⟨(words ++ rest) ++ [.rightBracket], ?_, .list all⟩
    exact (sees_ok looked).2.trans
      ((advance.trans further).trans (expectKind_ok .rightBracket rfl closed))

theorem atom_sound : (atom limit expr).Sound .atom := by
  intro source result target success
  suffices ∃ words, source.Advances target words ∧ Derives .atom .closed words result by
    obtain ⟨words, taken, derived⟩ := this
    exact ⟨.closed, words, taken, derived, .atom _⟩
  obtain ⟨found, middle, taken, success⟩ := bind_eq_ok_iff.mp success
  have advance := take_ok taken
  generalize found.map Token.lexeme = word at success advance
  split at success
  · obtain ⟨rfl, derived⟩ := numeral_sound success
    exact ⟨_, advance, derived⟩
  · obtain ⟨rfl, rfl⟩ := pure_eq_ok_iff.mp success
    exact ⟨_, advance, .truth⟩
  · obtain ⟨rfl, rfl⟩ := pure_eq_ok_iff.mp success
    exact ⟨_, advance, .falsehood⟩
  · obtain ⟨rfl, rfl⟩ := pure_eq_ok_iff.mp success
    exact ⟨_, advance, .reference _⟩
  · obtain ⟨inner, state, parsed, success⟩ := bind_eq_ok_iff.mp success
    obtain ⟨_, final, closed, success⟩ := bind_eq_ok_iff.mp success
    obtain ⟨rfl, rfl⟩ := pure_eq_ok_iff.mp success
    obtain ⟨ending, words, inside, derived, -⟩ := sound _ _ _ parsed
    exact ⟨_, advance.trans (inside.trans (expectKind_ok .rightParen rfl closed)),
      .parentheses derived⟩
  · obtain ⟨rest, inside, derived⟩ := listRest_sound sound success
    exact ⟨_, advance.trans inside, derived⟩
  · cases success

/-! ## Binding forms -/

/-- The last part of a binding form is an expression, so that the form stops where it does. -/
private theorem function_sound {source target : Stream} {result : Expr}
    (success : function limit expr source = .ok result target) :
    ∃ taken, source.Advances target taken ∧ Derives .application .trailing taken result ∧
      Stops 0 target.words := by
  obtain ⟨_, opened, backslash, success⟩ := bind_eq_ok_iff.mp success
  obtain ⟨names, named, parameters, success⟩ := bind_eq_ok_iff.mp success
  cases names with
  | nil =>
    obtain ⟨found, state, _, success⟩ := bind_eq_ok_iff.mp success
    cases success
  | cons name names =>
    obtain ⟨_, arrived, arrow, success⟩ := bind_eq_ok_iff.mp success
    obtain ⟨body, final, parsed, success⟩ := bind_eq_ok_iff.mp success
    obtain ⟨rfl, rfl⟩ := pure_eq_ok_iff.mp success
    obtain ⟨ending, words, inside, derived, stops⟩ := sound _ _ _ parsed
    rw [Category.bound_expression] at stops
    refine ⟨_, ?_, .function (List.cons_ne_nil name names) derived, stops⟩
    exact (expectKind_ok .backslash rfl backslash).trans
      ((params_ok parameters).trans ((expectKind_ok .arrow rfl arrow).trans inside))

private theorem definition_sound {source target : Stream} {result : Expr}
    (success : definition limit expr source = .ok result target) :
    ∃ taken, source.Advances target taken ∧ Derives .application .trailing taken result ∧
      Stops 0 target.words := by
  obtain ⟨_, opened, letWord, success⟩ := bind_eq_ok_iff.mp success
  obtain ⟨name, called, ident, success⟩ := bind_eq_ok_iff.mp success
  obtain ⟨names, named, parameters, success⟩ := bind_eq_ok_iff.mp success
  obtain ⟨_, arrived, equals, success⟩ := bind_eq_ok_iff.mp success
  obtain ⟨bound, defined, parsedBound, success⟩ := bind_eq_ok_iff.mp success
  obtain ⟨_, entered, inWord, success⟩ := bind_eq_ok_iff.mp success
  obtain ⟨body, final, parsedBody, success⟩ := bind_eq_ok_iff.mp success
  obtain ⟨rfl, rfl⟩ := pure_eq_ok_iff.mp success
  obtain ⟨first, front, insideBound, derivedBound, -⟩ := sound _ _ _ parsedBound
  obtain ⟨second, back, insideBody, derivedBody, stops⟩ := sound _ _ _ parsedBody
  rw [Category.bound_expression] at stops
  refine ⟨_, ?_, .definition name derivedBound derivedBody, stops⟩
  have head := (expectKeyword_ok letWord).trans (expectIdent_ok ident)
  have tail := insideBound.trans ((expectKeyword_ok inWord).trans insideBody)
  exact head.trans ((params_ok parameters).trans ((expectKind_ok .equals rfl equals).trans tail))

private theorem conditional_sound {source target : Stream} {result : Expr}
    (success : conditional expr source = .ok result target) :
    ∃ taken, source.Advances target taken ∧ Derives .application .trailing taken result ∧
      Stops 0 target.words := by
  obtain ⟨_, opened, ifWord, success⟩ := bind_eq_ok_iff.mp success
  obtain ⟨test, tested, parsedTest, success⟩ := bind_eq_ok_iff.mp success
  obtain ⟨_, chosen, thenWord, success⟩ := bind_eq_ok_iff.mp success
  obtain ⟨consequent, done, parsedConsequent, success⟩ := bind_eq_ok_iff.mp success
  obtain ⟨_, other, elseWord, success⟩ := bind_eq_ok_iff.mp success
  obtain ⟨alternative, final, parsedAlternative, success⟩ := bind_eq_ok_iff.mp success
  obtain ⟨rfl, rfl⟩ := pure_eq_ok_iff.mp success
  obtain ⟨first, front, insideTest, derivedTest, -⟩ := sound _ _ _ parsedTest
  obtain ⟨second, middle, insideConsequent, derivedConsequent, -⟩ := sound _ _ _ parsedConsequent
  obtain ⟨third, back, insideAlternative, derivedAlternative, stops⟩ :=
    sound _ _ _ parsedAlternative
  rw [Category.bound_expression] at stops
  refine ⟨_, ?_, .conditional derivedTest derivedConsequent derivedAlternative, stops⟩
  have tail := insideConsequent.trans ((expectKeyword_ok elseWord).trans insideAlternative)
  exact (expectKeyword_ok ifWord).trans
    (insideTest.trans ((expectKeyword_ok thenWord).trans tail))

theorem bindingForm_sound {form : BindingForm} {source target : Stream} {result : Expr}
    (success : bindingForm limit expr form source = .ok result target) :
    ∃ taken, source.Advances target taken ∧ Derives .application .trailing taken result ∧
      Stops 0 target.words := by
  cases form with
  | function => exact function_sound sound success
  | definition => exact definition_sound sound success
  | conditional => exact conditional_sound sound success

/-! ## Application -/

/-- The atoms that are arguments of the function in front of them. -/
private theorem arguments_sound {count : Nat} {source target : Stream} {function result : Expr}
    {front : List Lexeme} (head : Derives .application .closed front function)
    (success : arguments (atom limit expr) count function source = .ok result target) :
    ∃ taken, source.Advances target taken ∧
      Derives .application .closed (front ++ taken) result ∧
      Stops Category.application.strength target.words := by
  induction count generalizing source function front with
  | zero => cases success
  | succ count ih =>
    obtain ⟨ahead, middle, peeked, success⟩ := bind_eq_ok_iff.mp success
    obtain ⟨first, unmoved⟩ := peekLexeme_ok peeked
    split at success
    · obtain ⟨argument, state, parsed, success⟩ := bind_eq_ok_iff.mp success
      obtain ⟨ending, words, advance, derived, -⟩ := atom_sound sound _ _ _ parsed
      cases ending with
      | trailing => cases derived
      | closed =>
        obtain ⟨rest, further, whole, stops⟩ := ih (.apply head derived) success
        rw [List.append_assoc] at whole
        exact ⟨words ++ rest, unmoved.trans (advance.trans further), whole, stops⟩
    · rename_i noAtom
      obtain ⟨rfl, rfl⟩ := pure_eq_ok_iff.mp success
      refine ⟨[], unmoved, by rw [List.append_nil]; exact head, ?_⟩
      rw [first, unmoved.words_eq, List.nil_append] at noAtom
      exact .ofNoAtom noAtom

theorem application_sound : (application limit expr).Sound .application := by
  intro source result target success
  obtain ⟨ahead, middle, peeked, success⟩ := bind_eq_ok_iff.mp success
  obtain ⟨-, unmoved⟩ := peekLexeme_ok peeked
  generalize BindingForm.openedBy? ahead = form? at success
  cases form? with
  | some form =>
    obtain ⟨taken, advance, derived, stops⟩ := bindingForm_sound sound success
    exact ⟨.trailing, taken, unmoved.trans advance, derived, stops⟩
  | none =>
    obtain ⟨function, state, parsed, success⟩ := bind_eq_ok_iff.mp success
    obtain ⟨ending, words, advance, derived, -⟩ := atom_sound sound _ _ _ parsed
    cases ending with
    | trailing => cases derived
    | closed =>
      obtain ⟨rest, further, whole, stops⟩ := arguments_sound sound (.single derived) success
      exact ⟨.closed, words ++ rest, unmoved.trans (advance.trans further), whole, stops⟩

end

/-! ## Operators -/

section

variable {level : Level} {operand : Parser Expr} (sound : operand.Sound level.operand)
include sound

/-- The invariant of the loop: all that was taken so far is one phrase of the level. -/
private theorem leftOperands_sound (assoc : level.associativity = .left) {limit : Nat}
    {source target : Stream} {left result : Expr} {ending : Ending} {front : List Lexeme}
    (head : Derives (.operations level) ending front left)
    (stops : Stops (level.operand.bound ending) source.words)
    (success : leftOperands level operand limit left source = .ok result target) :
    ∃ last taken, source.Advances target taken ∧
      Derives (.operations level) last (front ++ taken) result ∧
      Stops ((Category.operations level).bound last) target.words := by
  induction limit generalizing source left ending front with
  | zero => cases success
  | succ limit ih =>
    obtain ⟨found, middle, looked, success⟩ := bind_eq_ok_iff.mp success
    obtain ⟨op, rfl, atLevel, advance⟩ | ⟨rfl, unmoved, noOperator⟩ := operator?_ok looked
    · rw [advance.words_eq] at stops
      obtain rfl := stops.closed_of_operator
      obtain ⟨right, state, parsed, success⟩ := bind_eq_ok_iff.mp success
      obtain ⟨kind, back, inside, derived, after⟩ := sound _ _ _ parsed
      obtain ⟨last, rest, further, whole, stops⟩ := ih (.toLeft assoc atLevel head derived) after success
      refine ⟨last, .operator op :: (back ++ rest), advance.trans (inside.trans further), ?_, stops⟩
      rw [List.append_assoc] at whole
      exact whole
    · obtain ⟨rfl, rfl⟩ := pure_eq_ok_iff.mp success
      refine ⟨ending, [], unmoved, by rw [List.append_nil]; exact head, ?_⟩
      have stopped := stops.ofOperand noOperator
      rw [unmoved.words_eq, List.nil_append] at stopped
      exact stopped

private theorem leftChain_sound (assoc : level.associativity = .left) (limit : Nat) :
    (leftChain level operand limit).Sound (.operations level) := by
  intro source result target success
  obtain ⟨first, middle, parsed, success⟩ := bind_eq_ok_iff.mp success
  obtain ⟨ending, front, advance, derived, stops⟩ := sound _ _ _ parsed
  obtain ⟨last, rest, further, whole, stopped⟩ :=
    leftOperands_sound sound assoc (.operand derived) stops success
  exact ⟨last, front ++ rest, advance.trans further, whole, stopped⟩

/-- Here the loop completes the phrase that begins with the operand in front of it. -/
theorem rightOperands_sound (assoc : level.associativity = .right) {limit : Nat}
    {source target : Stream} {left result : Expr} {ending : Ending} {front : List Lexeme}
    (head : Derives level.operand ending front left)
    (stops : Stops (level.operand.bound ending) source.words)
    (success : rightOperands level operand limit left source = .ok result target) :
    ∃ last taken, source.Advances target taken ∧
      Derives (.operations level) last (front ++ taken) result ∧
      Stops ((Category.operations level).bound last) target.words := by
  induction limit generalizing source left result ending front with
  | zero => cases success
  | succ limit ih =>
    obtain ⟨found, middle, looked, success⟩ := bind_eq_ok_iff.mp success
    obtain ⟨op, rfl, atLevel, advance⟩ | ⟨rfl, unmoved, noOperator⟩ := operator?_ok looked
    · rw [advance.words_eq] at stops
      obtain rfl := stops.closed_of_operator
      obtain ⟨next, state, parsed, success⟩ := bind_eq_ok_iff.mp success
      obtain ⟨right, final, more, success⟩ := bind_eq_ok_iff.mp success
      obtain ⟨rfl, rfl⟩ := pure_eq_ok_iff.mp success
      obtain ⟨kind, back, inside, derived, after⟩ := sound _ _ _ parsed
      obtain ⟨last, rest, further, whole, stops⟩ := ih derived after more
      exact ⟨last, .operator op :: (back ++ rest), advance.trans (inside.trans further),
        .toRight assoc atLevel head whole, stops⟩
    · obtain ⟨rfl, rfl⟩ := pure_eq_ok_iff.mp success
      refine ⟨ending, [], unmoved, by rw [List.append_nil]; exact .operand head, ?_⟩
      have stopped := stops.ofOperand noOperator
      rw [unmoved.words_eq, List.nil_append] at stopped
      exact stopped

private theorem rightChain_sound (assoc : level.associativity = .right) (limit : Nat) :
    (rightChain level operand limit).Sound (.operations level) := by
  intro source result target success
  obtain ⟨first, middle, parsed, success⟩ := bind_eq_ok_iff.mp success
  obtain ⟨ending, front, advance, derived, stops⟩ := sound _ _ _ parsed
  obtain ⟨last, rest, further, whole, stopped⟩ :=
    rightOperands_sound sound assoc derived stops success
  exact ⟨last, front ++ rest, advance.trans further, whole, stopped⟩

private theorem noChain_sound (assoc : level.associativity = .none) :
    (noChain level operand).Sound (.operations level) := by
  intro source result target success
  obtain ⟨left, middle, parsed, success⟩ := bind_eq_ok_iff.mp success
  obtain ⟨ending, front, advance, derived, stops⟩ := sound _ _ _ parsed
  obtain ⟨found, state, looked, success⟩ := bind_eq_ok_iff.mp success
  obtain ⟨op, rfl, atLevel, taken⟩ | ⟨rfl, unmoved, noOperator⟩ := operator?_ok looked
  · rw [taken.words_eq] at stops
    obtain rfl := stops.closed_of_operator
    obtain ⟨right, behind, parsedRight, success⟩ := bind_eq_ok_iff.mp success
    obtain ⟨last, back, inside, derivedRight, after⟩ := sound _ _ _ parsedRight
    obtain ⟨second, final, peeked, success⟩ := bind_eq_ok_iff.mp success
    obtain ⟨ahead, unmoved⟩ := peek_ok peeked
    obtain ⟨rfl, rfl, noSecond⟩ : .binary op left right = result ∧ final = target ∧
        ∀ other, behind.words.head? = some (.operator other) → other.level ≠ level := by
      rw [← ahead]
      generalize second.map Token.lexeme = word at success
      split at success
      · rename_i other
        split at success
        · cases success
        · rename_i otherLevel
          obtain ⟨rfl, rfl⟩ := pure_eq_ok_iff.mp success
          refine ⟨rfl, rfl, fun another same => ?_⟩
          obtain rfl : other = another := by simpa using same
          exact otherLevel
      · rename_i noOperator
        obtain ⟨rfl, rfl⟩ := pure_eq_ok_iff.mp success
        exact ⟨rfl, rfl, fun another same => (noOperator another same).elim⟩
    have stopped := after.ofOperand noSecond
    rw [unmoved.words_eq, List.nil_append] at stopped
    refine ⟨last, front ++ .operator op :: back, ?_, .once assoc atLevel derived derivedRight, stopped⟩
    have behindOp := taken.trans (inside.trans unmoved)
    rw [List.append_nil] at behindOp
    exact advance.trans behindOp
  · obtain ⟨rfl, rfl⟩ := pure_eq_ok_iff.mp success
    have stopped := stops.ofOperand noOperator
    rw [unmoved.words_eq, List.nil_append] at stopped
    exact ⟨ending, front ++ [], advance.trans unmoved, by rw [List.append_nil]; exact .operand derived, stopped⟩

end

/-! ## Expressions and programs -/

theorem operations_sound {limit : Nat} {expr : Parser Expr} (sound : expr.Sound .expression)
    (level : Level) : (operations limit expr level).Sound (.operations level) := by
  have product : (operations limit expr .product).Sound (.operations .product) :=
    leftChain_sound (application_sound sound) rfl limit
  have sum : (operations limit expr .sum).Sound (.operations .sum) :=
    leftChain_sound product rfl limit
  have construction : (operations limit expr .construction).Sound (.operations .construction) :=
    rightChain_sound sum rfl limit
  have comparison : (operations limit expr .comparison).Sound (.operations .comparison) :=
    noChain_sound construction rfl
  have conjunction : (operations limit expr .conjunction).Sound (.operations .conjunction) :=
    leftChain_sound comparison rfl limit
  cases level with
  | disjunction => exact leftChain_sound conjunction rfl limit
  | conjunction => exact conjunction
  | comparison => exact comparison
  | construction => exact construction
  | sum => exact sum
  | product => exact product

theorem expression_sound (limit : Nat) : (expression limit).Sound .expression := by
  induction limit with
  | zero => intro source result target success; cases success
  | succ limit ih =>
    intro source result target success
    obtain ⟨ahead, middle, peeked, success⟩ := bind_eq_ok_iff.mp success
    obtain ⟨-, unmoved⟩ := peekLexeme_ok peeked
    generalize BindingForm.openedBy? ahead = form? at success
    cases form? with
    | some form =>
      obtain ⟨taken, advance, derived, stops⟩ := bindingForm_sound ih success
      exact ⟨.trailing, taken, unmoved.trans advance, derived.ofApplication .disjunction, stops⟩
    | none =>
      obtain ⟨ending, taken, advance, derived, stops⟩ :=
        operations_sound ih .disjunction _ _ _ success
      exact ⟨ending, taken, unmoved.trans advance, derived, stops⟩

/-- A parsed program is all there is in the stream, and nothing is wrong behind it. -/
theorem program_sound {limit : Nat} {source target : Stream} {result : Expr}
    (success : program limit source = .ok result target) :
    Denotes source.words result ∧ source.fault = none := by
  obtain ⟨expr, middle, parsed, success⟩ := bind_eq_ok_iff.mp success
  obtain ⟨found, state, peeked, success⟩ := bind_eq_ok_iff.mp success
  obtain ⟨ending, taken, advance, derived, -⟩ := expression_sound limit _ _ _ parsed
  cases found with
  | some token => cases success
  | none =>
    obtain ⟨rfl, rfl⟩ := pure_eq_ok_iff.mp success
    obtain ⟨nothing, sound⟩ := peek_none peeked
    refine ⟨⟨ending, ?_⟩, advance.fault_eq.symm.trans sound⟩
    rw [advance.words_eq, nothing, List.append_nil]
    exact derived

end Parser

end MiniFun
