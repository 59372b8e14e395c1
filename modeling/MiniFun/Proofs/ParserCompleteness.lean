import MiniFun.Proofs.ParserSoundness

/-! # Every derived phrase is parsed

The words of a phrase are taken by the parser of its category, and give the expression that they
denote, wherever the next word does not continue the phrase. The limits of the parser are no
obstacle as long as they are not below the number of words.

A rule that combines to the left has its loop in front of it: the phrase so far is what the loop
has reached, and the rest is up to the next turns. What is shown of such a phrase is therefore how
the loop goes on behind it (`Grows`), and not yet that the parser ends. A binding form at the head
of an expression is parsed without any loop, so that it is followed separately (`Opens`).
-/

namespace MiniFun

open MiniFun.Parser

/-! ## First words -/

theorem Level.operand_ne_items (level : Level) : level.operand ≠ .items := by
  cases level <;> simp [operand]

/-- A phrase begins with an atom or with a binding form, and with an atom if it is closed. The
first item of a list is an expression of its own, which may be trailing all the same. -/
theorem Derives.first_word {category : Category} {ending : Ending} {words : List Lexeme}
    {expr : Expr} (derived : Derives category ending words expr) :
    ∃ word rest, words = word :: rest ∧ (word.startsAtom = true ∨
      (BindingForm.openedBy? (some word)).isSome = true ∧
        (ending = .trailing ∨ category = .items)) := by
  induction derived with
  | numeral | truth | falsehood | reference | parentheses | emptyList | list =>
    exact ⟨_, _, rfl, .inl rfl⟩
  | function | definition | conditional => exact ⟨_, _, rfl, .inr ⟨rfl, .inl rfl⟩⟩
  | lastItem _ ih | moreItems _ _ ih _ =>
    obtain ⟨word, rest, rfl, starts⟩ := ih
    exact ⟨word, _, rfl, starts.imp id fun opens => ⟨opens.1, .inr rfl⟩⟩
  | single _ ih =>
    obtain ⟨word, rest, rfl, starts⟩ := ih
    exact ⟨word, rest, rfl, .inl (starts.resolve_right (by simp))⟩
  | @operand level _ _ _ _ ih =>
    obtain ⟨word, rest, rfl, starts⟩ := ih
    refine ⟨word, rest, rfl, starts.imp id fun opens => ⟨opens.1, .inl ?_⟩⟩
    exact opens.2.resolve_right level.operand_ne_items
  | apply _ _ ih _ | toLeft _ _ _ _ ih _ =>
    obtain ⟨word, rest, rfl, starts⟩ := ih
    exact ⟨word, _, rfl, .inl (starts.resolve_right (by simp))⟩
  | @toRight level _ _ _ _ _ _ _ _ _ _ ih _ | @once level _ _ _ _ _ _ _ _ _ _ ih _ =>
    obtain ⟨word, rest, rfl, starts⟩ := ih
    exact ⟨word, _, rfl, .inl (starts.resolve_right (by simp [level.operand_ne_items]))⟩

theorem Derives.length_pos {category : Category} {ending : Ending} {words : List Lexeme}
    {expr : Expr} (derived : Derives category ending words expr) : 0 < words.length := by
  obtain ⟨word, rest, rfl, -⟩ := derived.first_word
  exact Nat.zero_lt_succ _

theorem Derives.first_of_closed {category : Category} {words : List Lexeme} {expr : Expr}
    (derived : Derives category .closed words expr) (noItems : category ≠ .items) :
    words.head?.any Lexeme.startsAtom = true := by
  obtain ⟨word, rest, rfl, starts⟩ := derived.first_word
  exact starts.resolve_right (by simp [noItems])

/-- The word that closes a list begins no phrase. -/
private theorem Derives.first_ne_bracket {category : Category} {ending : Ending}
    {words : List Lexeme} {expr : Expr} (derived : Derives category ending words expr)
    (left : List Lexeme) :
    kindAhead (words ++ left) ≠ .rightBracket := by
  obtain ⟨word, rest, rfl, starts⟩ := derived.first_word
  rintro same
  obtain rfl : word = .rightBracket := Lexeme.eq_of_kind_eq rfl same
  obtain starts | ⟨opens, -⟩ := starts
  · cases starts
  · cases opens

private theorem any_head_append {front : List Lexeme} {test : Lexeme → Bool}
    (first : front.head?.any test = true) (back : List Lexeme) :
    (front ++ back).head?.any test = true := by
  cases front with
  | nil => cases first
  | cons word rest => exact first

/-- No binding form begins with a word that begins an atom. -/
theorem BindingForm.openedBy?_of_startsAtom {words : List Lexeme}
    (first : words.head?.any Lexeme.startsAtom = true) : openedBy? words.head? = none := by
  rcases words with _ | ⟨word, rest⟩
  · rfl
  · cases word with
    | keyword keyword => cases keyword <;> first | rfl | cases first
    | _ => first | rfl | cases first

/-! ## What is shown of a phrase -/

namespace Parser

/-- The items of a list, at most `count` of them behind the first. -/
def itemList (limit count : Nat) : Parser (List Expr) := do
  let first ← expression limit
  let rest ← furtherItems (expression limit) count
  return first :: rest

end Parser

def Category.parser (category : Category) (limit : Nat) : Parser Expr :=
  match category with
  | operations level => Parser.operations limit (Parser.expression limit) level
  | application => Parser.application limit (Parser.expression limit)
  | atom => Parser.atom limit (Parser.expression limit)
  | items => Expr.ofItems <$> itemList limit limit

private theorem Category.parser_left {level : Level} (assoc : level.associativity = .left)
    (limit : Nat) :
    (operations level).parser limit = leftChain level (level.operand.parser limit) limit := by
  cases level <;> first | rfl | cases assoc

private theorem Category.parser_right {level : Level} (assoc : level.associativity = .right)
    (limit : Nat) :
    (operations level).parser limit = rightChain level (level.operand.parser limit) limit := by
  cases level <;> first | rfl | cases assoc

private theorem Category.parser_once {level : Level} (assoc : level.associativity = .none)
    (limit : Nat) :
    (operations level).parser limit = noChain level (level.operand.parser limit) := by
  cases level <;> first | rfl | cases assoc

/-- The binding form at the head of the words, if there is one, takes all of them. -/
def Opens (words : List Lexeme) (expr : Expr) : Prop :=
  ∀ form, BindingForm.openedBy? words.head? = some form →
    ∀ limit left, words.length ≤ limit → Stops 0 left →
      (bindingForm limit (Parser.expression limit) form).Takes words left expr

/-- Behind the words, the loop of the parser has reached the expression. Whatever its next turns
make of the words that follow is what the parser makes of all of them. -/
def Grows (parser : Nat → Parser Expr) (loop : Nat → Nat → Expr → Parser Expr) (bound : Nat)
    (words : List Lexeme) (expr : Expr) : Prop :=
  ∀ limit, words.length ≤ limit → ∃ count, limit < count + words.length ∧
    ∀ back left result, Stops bound (back ++ left) →
      (loop limit count expr).Takes back left result →
      (parser limit).Takes (words ++ back) left result

/-- What the parsers promise of the words of a phrase. -/
def Promised : Category → Ending → List Lexeme → Expr → Prop
  | .atom, _, words, expr =>
    ∀ limit left, words.length ≤ limit → (Category.atom.parser limit).Takes words left expr
  | .items, _, words, expr =>
    ∃ items, expr = .ofItems items ∧ ∀ limit count left, words.length < limit →
      words.length ≤ count → (itemList limit count).Takes words (.rightBracket :: left) items
  | .application, .closed, words, expr =>
    Grows Category.application.parser
      (fun limit count => arguments (Category.atom.parser limit) count)
      Category.atom.strength words expr
  | .application, .trailing, words, expr =>
    Opens words expr ∧ (BindingForm.openedBy? words.head?).isSome = true
  | .operations level, ending, words, expr =>
    Opens words expr ∧
      match level.associativity with
      | .left =>
        Grows (Category.operations level).parser
          (fun limit count => leftOperands level (level.operand.parser limit) count)
          (level.operand.bound ending) words expr
      | .right =>
        ∀ limit count left, words.length ≤ limit → words.length ≤ count →
          Stops ((Category.operations level).bound ending) left →
          (rightChain level (level.operand.parser limit) count).Takes words left expr
      | .none =>
        ∀ limit left, words.length ≤ limit → Stops ((Category.operations level).bound ending) left →
          (noChain level (level.operand.parser limit)).Takes words left expr

/-! ## From what is shown to what is taken -/

private theorem head_append {words : List Lexeme} (nonempty : 0 < words.length)
    (left : List Lexeme) : (words ++ left).head? = words.head? := by
  rcases words with _ | ⟨word, rest⟩
  · cases nonempty
  · rfl

private theorem takes_noArguments {parser : Parser Expr} {count : Nat} {left : List Lexeme}
    {expr : Expr} (turn : 0 < count) (stops : Stops Category.application.strength left) :
    (arguments parser count expr).Takes [] left expr := by
  obtain ⟨count, rfl⟩ : ∃ less, count = less + 1 := ⟨count - 1, by omega⟩
  refine .peekLexeme_bind ?_
  rw [List.nil_append, if_neg stops.noAtom]
  exact takes_pure _ _

private theorem takes_noLeftOperands {level : Level} {operand : Parser Expr} {count : Nat}
    {left : List Lexeme} {expr : Expr} (turn : 0 < count) (stops : Stops level.strength left) :
    (leftOperands level operand count expr).Takes [] left expr := by
  obtain ⟨count, rfl⟩ : ∃ less, count = less + 1 := ⟨count - 1, by omega⟩
  rw [← List.append_nil ([] : List Lexeme)]
  exact .bind (takes_noOperator stops.noOperator) (takes_pure _ _)

/-- The parser of the category takes the words where nothing can continue them. -/
theorem Promised.takes {category : Category} {ending : Ending} {words : List Lexeme} {expr : Expr}
    (promised : Promised category ending words expr) (derived : Derives category ending words expr)
    (noItems : category ≠ .items) (limit : Nat) (left : List Lexeme)
    (enough : words.length ≤ limit) (stops : Stops (category.bound ending) left) :
    (category.parser limit).Takes words left expr := by
  match category, ending with
  | .atom, _ => exact promised limit left enough
  | .items, _ => exact (noItems rfl).elim
  | .application, .closed =>
    obtain ⟨count, turn, grows⟩ := promised limit enough
    have whole := grows [] left expr (.atom _) (takes_noArguments (by omega) stops)
    rw [List.append_nil] at whole
    exact whole
  | .application, .trailing =>
    obtain ⟨opens, opened⟩ := promised
    obtain ⟨form, known⟩ := Option.isSome_iff_exists.mp opened
    refine .peekLexeme_bind ?_
    rw [head_append derived.length_pos, known]
    exact opens form known limit left enough stops
  | .operations level, ending =>
    have stopped : Stops level.strength left := stops.mono (Category.bound_le _ _)
    have shown := promised.2
    cases assoc : level.associativity with
    | left =>
      rw [assoc] at shown
      obtain ⟨count, turn, grows⟩ := shown limit enough
      have operand := stops.mono (level.bound_le_operand ending)
      have whole := grows [] left expr operand (takes_noLeftOperands (by omega) stopped)
      rw [List.append_nil] at whole
      exact whole
    | right =>
      rw [assoc] at shown
      rw [Category.parser_right assoc]
      exact shown limit limit left enough enough stops
    | none =>
      rw [assoc] at shown
      rw [Category.parser_once assoc]
      exact shown limit left enough stops

/-- An expression is taken by its own parser, which looks for a binding form first. -/
theorem Promised.expression {ending : Ending} {words : List Lexeme} {expr : Expr}
    (promised : Promised .expression ending words expr)
    (derived : Derives .expression ending words expr) (limit : Nat) (left : List Lexeme)
    (enough : words.length < limit) (stops : Stops 0 left) :
    (Parser.expression limit).Takes words left expr := by
  obtain ⟨limit, rfl⟩ : ∃ less, limit = less + 1 := ⟨limit - 1, by omega⟩
  have enough : words.length ≤ limit := Nat.le_of_lt_succ enough
  refine .peekLexeme_bind ?_
  rw [head_append derived.length_pos]
  cases known : BindingForm.openedBy? words.head? with
  | some form => exact promised.1 form known limit left enough stops
  | none =>
    exact promised.takes derived nofun limit left enough
      (by rw [Category.bound_expression]; exact stops)

/-! ## Atoms -/

private theorem takes_numeral {digits : String} {value : Nat}
    (readable : Text.readNumeral? digits.toList = some value) (limit : Nat) (left : List Lexeme) :
    (Category.atom.parser limit).Takes [.number digits] left (.int value) := by
  refine .take_bind fun _ => ?_
  change (numeral digits).Takes [] left _
  unfold numeral
  rw [readable]
  exact takes_pure _ _

private theorem takes_parentheses {inner : List Lexeme} {expr : Expr} {limit : Nat}
    (inside : ∀ left, (Parser.expression limit).Takes inner (.rightParen :: left) expr)
    (left : List Lexeme) :
    (Category.atom.parser limit).Takes (.leftParen :: (inner ++ [.rightParen])) left expr := by
  refine .take_bind fun _ => ?_
  exact .bind (inside left) ((takes_expectKind .rightParen left).bind_pure _)

private theorem takes_emptyList (limit : Nat) (left : List Lexeme) :
    (Category.atom.parser limit).Takes [.leftBracket, .rightBracket] left .nil := by
  refine .take_bind fun _ => .sees_bind ?_
  exact (takes_expectKind .rightBracket left).bind_pure _

private theorem takes_list {inner : List Lexeme} {items : List Expr} {limit : Nat}
    {left : List Lexeme} (first : kindAhead ((inner ++ [.rightBracket]) ++ left) ≠ .rightBracket)
    (inside : (itemList limit limit).Takes inner (.rightBracket :: left) items) :
    (Category.atom.parser limit).Takes (.leftBracket :: (inner ++ [.rightBracket])) left
      (.ofItems items) := by
  refine .take_bind fun _ => .sees_bind ?_
  rw [beq_false_of_ne first]
  have closed : (itemList limit limit >>= fun items => do
      expectKind .rightBracket
      return Expr.ofItems items).Takes (inner ++ [.rightBracket]) left (.ofItems items) :=
    .bind inside ((takes_expectKind .rightBracket left).bind_pure _)
  simp only [itemList, bind_assoc, pure_bind] at closed
  exact closed

private theorem takes_lastItem {words : List Lexeme} {item : Expr} {limit count : Nat}
    {left : List Lexeme} (turn : 0 < count)
    (parsed : (Parser.expression limit).Takes words (.rightBracket :: left) item) :
    (itemList limit count).Takes words (.rightBracket :: left) [item] := by
  obtain ⟨count, rfl⟩ : ∃ less, count = less + 1 := ⟨count - 1, by omega⟩
  have nothing : (furtherItems (Parser.expression limit) (count + 1)).Takes []
      (.rightBracket :: left) [] := .sees_bind (takes_pure _ _)
  rw [← List.append_nil words]
  exact parsed.bind (nothing.bind_pure _)

private theorem takes_moreItems {front back : List Lexeme} {item : Expr} {items : List Expr}
    {limit count : Nat} {left : List Lexeme}
    (head : (Parser.expression limit).Takes front (.comma :: (back ++ left)) item)
    (rest : (itemList limit count).Takes back left items) :
    (itemList limit (count + 1)).Takes (front ++ .comma :: back) left (item :: items) := by
  have others : (furtherItems (Parser.expression limit) (count + 1)).Takes (.comma :: back) left
      items := .sees_bind (.take_bind fun _ => rest)
  exact head.bind (others.bind_pure _)

/-! ## Binding forms -/

private theorem takes_function {params : List String} {inner : List Lexeme} {body : Expr}
    {limit : Nat} {left : List Lexeme} (nonempty : params ≠ []) (enough : params.length < limit)
    (parsed : (Parser.expression limit).Takes inner left body) :
    (function limit (Parser.expression limit)).Takes
      (.backslash :: (params.map .ident ++ .arrow :: inner)) left (.curried params body) := by
  have arrow : (do
      expectKind .arrow
      return Expr.curried params (← Parser.expression limit)).Takes (.arrow :: inner) left
        (.curried params body) :=
    .bind (takes_expectKind .arrow _) (parsed.bind_pure _)
  refine .bind (takes_expectKind .backslash _) (.bind (takes_params enough nofun) ?_)
  cases params with
  | nil => exact (nonempty rfl).elim
  | cons param params => exact arrow

private theorem takes_definition {name : String} {params : List String} {front back : List Lexeme}
    {bound body : Expr} {limit : Nat} {left : List Lexeme} (enough : params.length < limit)
    (parsedBound : (Parser.expression limit).Takes front
      (.keyword .inWord :: (back ++ left)) bound)
    (parsedBody : (Parser.expression limit).Takes back left body) :
    (definition limit (Parser.expression limit)).Takes
      (.keyword .letWord :: .ident name :: (params.map .ident ++ .equals ::
        (front ++ .keyword .inWord :: back))) left (.letIn name (.curried params bound) body) := by
  refine .bind (takes_expectKeyword .letWord _) (.bind (takes_expectIdent name _) ?_)
  refine .bind (takes_params enough nofun) (.bind (takes_expectKind .equals _) ?_)
  refine .bind parsedBound (.bind (takes_expectKeyword .inWord _) ?_)
  exact parsedBody.bind_pure _

private theorem takes_conditional {front middle back : List Lexeme}
    {test consequent alternative : Expr} {limit : Nat} {left : List Lexeme}
    (parsedTest : (Parser.expression limit).Takes front
      (.keyword .thenWord :: (middle ++ .keyword .elseWord :: back) ++ left) test)
    (parsedConsequent : (Parser.expression limit).Takes middle
      (.keyword .elseWord :: (back ++ left)) consequent)
    (parsedAlternative : (Parser.expression limit).Takes back left alternative) :
    (conditional (Parser.expression limit)).Takes
      (.keyword .ifWord :: (front ++ .keyword .thenWord ::
        (middle ++ .keyword .elseWord :: back))) left (.cond test consequent alternative) := by
  refine .bind (takes_expectKeyword .ifWord _) (.bind parsedTest ?_)
  refine .bind (takes_expectKeyword .thenWord _) (.bind parsedConsequent ?_)
  exact .bind (takes_expectKeyword .elseWord _) (parsedAlternative.bind_pure _)

/-! ## Application -/

private theorem Opens.of_atom {words : List Lexeme} {expr : Expr}
    (first : words.head?.any Lexeme.startsAtom = true) : Opens words expr := by
  intro form opened
  rw [BindingForm.openedBy?_of_startsAtom first] at opened
  cases opened

private theorem grows_single {words : List Lexeme} {expr : Expr}
    (first : words.head?.any Lexeme.startsAtom = true) (nonempty : 0 < words.length)
    (promised : Promised .atom .closed words expr) :
    Promised .application .closed words expr := by
  intro limit enough
  refine ⟨limit, by omega, fun back left result _ loop => ?_⟩
  refine .peekLexeme_bind ?_
  rw [List.append_assoc, head_append nonempty, BindingForm.openedBy?_of_startsAtom first]
  exact .bind (promised limit _ enough) loop

private theorem grows_apply {front back : List Lexeme} {function argument : Expr}
    (first : back.head?.any Lexeme.startsAtom = true) (nonempty : 0 < back.length)
    (head : Promised .application .closed front function)
    (promised : Promised .atom .closed back argument) :
    Promised .application .closed (front ++ back) (.apply function argument) := by
  intro limit enough
  rw [List.length_append] at enough
  obtain ⟨count, turn, grows⟩ := head limit (by omega)
  obtain ⟨count, rfl⟩ : ∃ less, count = less + 1 := ⟨count - 1, by omega⟩
  refine ⟨count, by rw [List.length_append]; omega, fun behind left result stops loop => ?_⟩
  rw [List.append_assoc]
  refine grows (back ++ behind) left result (.atom _) (.peekLexeme_bind ?_)
  rw [List.append_assoc, head_append nonempty, if_pos first]
  exact .bind (promised limit _ (by omega)) loop

/-! ## Operators -/

theorem Promised.opens {category : Category} {ending : Ending} {words : List Lexeme} {expr : Expr}
    (promised : Promised category ending words expr) (derived : Derives category ending words expr)
    (noItems : category ≠ .items) : Opens words expr := by
  match category, ending with
  | .items, _ => exact (noItems rfl).elim
  | .operations level, _ => exact promised.1
  | .application, .trailing => exact promised.1
  | .atom, .closed | .application, .closed => exact .of_atom (derived.first_of_closed noItems)
  | .atom, .trailing => cases derived

private theorem takes_noRightOperands {level : Level} {operand : Parser Expr} {count : Nat}
    {left : List Lexeme} {expr : Expr} (turn : 0 < count) (stops : Stops level.strength left) :
    (rightOperands level operand count expr).Takes [] left expr := by
  obtain ⟨count, rfl⟩ : ∃ less, count = less + 1 := ⟨count - 1, by omega⟩
  rw [← List.append_nil ([] : List Lexeme)]
  exact .bind (takes_noOperator stops.noOperator) (takes_pure _ _)

/-- An operand alone is a phrase of the level: its loop ends before its first turn. -/
private theorem promised_operand {level : Level} {ending : Ending} {words : List Lexeme}
    {expr : Expr} (derived : Derives level.operand ending words expr)
    (promised : Promised level.operand ending words expr) :
    Promised (.operations level) ending words expr := by
  refine ⟨promised.opens derived level.operand_ne_items, ?_⟩
  have nonempty := derived.length_pos
  have taken := promised.takes derived level.operand_ne_items
  cases assoc : level.associativity with
  | left =>
    intro limit enough
    refine ⟨limit, by omega, fun back left result stops loop => ?_⟩
    rw [Category.parser_left assoc]
    exact .bind (taken limit _ enough stops) loop
  | right =>
    intro limit count left enough turns stops
    have stopped : Stops level.strength left := stops.mono (Category.bound_le _ _)
    rw [← List.append_nil words]
    exact .bind (taken limit _ enough (stops.mono (level.bound_le_operand ending)))
      (takes_noRightOperands (by omega) stopped)
  | none =>
    intro limit left enough stops
    have stopped : Stops level.strength left := stops.mono (Category.bound_le _ _)
    rw [← List.append_nil words]
    refine .bind (taken limit _ enough (stops.mono (level.bound_le_operand ending))) ?_
    rw [← List.append_nil ([] : List Lexeme)]
    exact .bind (takes_noOperator stopped.noOperator) (takes_pure _ _)

section

variable {level : Level} {op : Operator} {ending : Ending} {front back : List Lexeme}
  {left right : Expr}

private theorem promised_toLeft (assoc : level.associativity = .left) (atLevel : op.level = level)
    (derived : Derives (.operations level) .closed front left)
    (head : Promised (.operations level) .closed front left)
    (derivedBack : Derives level.operand ending back right)
    (promised : Promised level.operand ending back right) :
    Promised (.operations level) ending (front ++ .operator op :: back) (.binary op left right) := by
  subst atLevel
  refine ⟨.of_atom (any_head_append (derived.first_of_closed nofun) _), ?_⟩
  have grown := head.2
  rw [assoc] at grown ⊢
  intro limit enough
  rw [List.length_append, List.length_cons] at enough
  obtain ⟨count, turn, grows⟩ := grown limit (by omega)
  obtain ⟨count, rfl⟩ : ∃ less, count = less + 1 := ⟨count - 1, by omega⟩
  refine ⟨count, by rw [List.length_append, List.length_cons]; omega, ?_⟩
  intro behind rest result stops loop
  rw [List.append_assoc, List.cons_append]
  refine grows (.operator op :: (back ++ behind)) rest result (.operand_operator op _) ?_
  have taken := promised.takes derivedBack op.level.operand_ne_items limit (behind ++ rest)
    (by omega) stops
  exact .bind (takes_operator op _) (.bind taken loop)

private theorem promised_toRight (assoc : level.associativity = .right) (atLevel : op.level = level)
    (derived : Derives level.operand .closed front left)
    (head : Promised level.operand .closed front left)
    (promised : Promised (.operations level) ending back right) :
    Promised (.operations level) ending (front ++ .operator op :: back) (.binary op left right) := by
  subst atLevel
  refine ⟨.of_atom (any_head_append (derived.first_of_closed op.level.operand_ne_items) _), ?_⟩
  have shown := promised.2
  rw [assoc] at shown ⊢
  intro limit count rest enough turns stops
  rw [List.length_append, List.length_cons] at enough turns
  obtain ⟨count, rfl⟩ : ∃ less, count = less + 1 := ⟨count - 1, by omega⟩
  have taken := head.takes derived op.level.operand_ne_items limit
    (.operator op :: (back ++ rest)) (by omega) (.operand_operator op _)
  have chain := shown limit count rest (by omega) (by omega) stops
  refine .bind taken (.bind (takes_operator op _) ?_)
  have mapped := chain.bind_pure (Expr.binary op left)
  simp only [rightChain, bind_assoc] at mapped
  exact mapped

private theorem promised_once (assoc : level.associativity = .none) (atLevel : op.level = level)
    (derived : Derives level.operand .closed front left)
    (head : Promised level.operand .closed front left)
    (derivedBack : Derives level.operand ending back right)
    (promised : Promised level.operand ending back right) :
    Promised (.operations level) ending (front ++ .operator op :: back) (.binary op left right) := by
  subst atLevel
  refine ⟨.of_atom (any_head_append (derived.first_of_closed op.level.operand_ne_items) _), ?_⟩
  rw [assoc]
  intro limit rest enough stops
  rw [List.length_append, List.length_cons] at enough
  have takenLeft := head.takes derived op.level.operand_ne_items limit
    (.operator op :: (back ++ rest)) (by omega) (.operand_operator op _)
  have takenRight := promised.takes derivedBack op.level.operand_ne_items limit rest (by omega)
    (stops.mono (op.level.bound_le_operand ending))
  have stopped : Stops op.level.strength rest := stops.mono (Category.bound_le _ _)
  refine .bind takenLeft (.bind (takes_operator op _) ?_)
  rw [← List.append_nil back]
  refine .bind takenRight (.peek_bind fun found ahead => ?_)
  rw [ahead, List.nil_append]
  split
  · rename_i second word
    rw [if_neg (stopped.noOperator second word)]
    exact takes_pure _ _
  · exact takes_pure _ _

end

/-! ## Phrases and programs -/

theorem Derives.promised {category : Category} {ending : Ending} {words : List Lexeme}
    {expr : Expr} (derived : Derives category ending words expr) :
    Promised category ending words expr := by
  induction derived with
  | numeral readable => exact fun limit left _ => takes_numeral readable limit left
  | truth | falsehood | reference => exact fun limit left _ => .take_bind fun _ => takes_pure _ _
  | parentheses inner ih =>
    intro limit left enough
    rw [List.length_cons, List.length_append] at enough
    exact takes_parentheses (fun left => ih.expression inner limit _ (by omega) (.of_ender rfl)) left
  | emptyList => exact fun limit left _ => takes_emptyList limit left
  | list inner ih =>
    obtain ⟨items, rfl, inside⟩ := ih
    intro limit left enough
    rw [List.length_cons, List.length_append] at enough
    refine takes_list ?_ (inside limit limit left (by omega) (by omega))
    rw [List.append_assoc]
    exact inner.first_ne_bracket _
  | lastItem item ih =>
    refine ⟨[_], rfl, fun limit count left enough turns => ?_⟩
    have nonempty := item.length_pos
    exact takes_lastItem (by omega) (ih.expression item limit _ enough (.of_ender rfl))
  | moreItems item _ ih rest =>
    obtain ⟨items, rfl, inside⟩ := rest
    refine ⟨_ :: items, rfl, fun limit count left enough turns => ?_⟩
    rw [List.length_append, List.length_cons] at enough turns
    obtain ⟨count, rfl⟩ : ∃ less, count = less + 1 := ⟨count - 1, by omega⟩
    exact takes_moreItems (ih.expression item limit _ (by omega) (.of_ender rfl))
      (inside limit count left (by omega) (by omega))
  | function nonempty body ih =>
    refine ⟨?_, rfl⟩
    rintro form ⟨⟩ limit left enough stops
    simp only [List.length_cons, List.length_append, List.length_map] at enough
    exact takes_function nonempty (by omega) (ih.expression body limit left (by omega) stops)
  | definition name bound body ihBound ihBody =>
    refine ⟨?_, rfl⟩
    rintro form ⟨⟩ limit left enough stops
    simp only [List.length_cons, List.length_append, List.length_map] at enough
    exact takes_definition (by omega)
      (ihBound.expression bound limit _ (by omega) (.of_ender rfl))
      (ihBody.expression body limit left (by omega) stops)
  | conditional test consequent alternative ihTest ihConsequent ihAlternative =>
    refine ⟨?_, rfl⟩
    rintro form ⟨⟩ limit left enough stops
    simp only [List.length_cons, List.length_append] at enough
    exact takes_conditional (ihTest.expression test limit _ (by omega) (.of_ender rfl))
      (ihConsequent.expression consequent limit _ (by omega) (.of_ender rfl))
      (ihAlternative.expression alternative limit left (by omega) stops)
  | single atom ih => exact grows_single (atom.first_of_closed nofun) atom.length_pos ih
  | apply _ argument ih ihArgument =>
    exact grows_apply (argument.first_of_closed nofun) argument.length_pos ih ihArgument
  | operand derived ih => exact promised_operand derived ih
  | toLeft assoc atLevel left right ihLeft ihRight =>
    exact promised_toLeft assoc atLevel left ihLeft right ihRight
  | toRight assoc atLevel left _ ihLeft ihRight =>
    exact promised_toRight assoc atLevel left ihLeft ihRight
  | once assoc atLevel left right ihLeft ihRight =>
    exact promised_once assoc atLevel left ihLeft right ihRight

/-- The words of a program are parsed to the end of the stream, within the limit that their number
sets. -/
theorem Denotes.parse {words : List Lexeme} {expr : Expr} (denotes : Denotes words expr)
    {source : Stream} (all : source.words = words) (sound : source.fault = none) :
    ∃ target, Phrase.program.parse source = .ok expr target := by
  subst all
  obtain ⟨ending, derived⟩ := denotes
  have enough : source.words.length < source.remaining.length + 1 := by
    rw [source.length_remaining]
    exact Nat.lt_succ_self _
  have taken : (program (source.remaining.length + 1)).Takes (source.words ++ []) [] expr := by
    refine .bind (derived.promised.expression derived _ _ enough nofun) (.peek_bind ?_)
    intro found ahead
    obtain rfl : found = none := by simpa using ahead
    exact takes_pure _ _
  obtain ⟨target, success, -⟩ := taken source (by simp) sound
  exact ⟨target, success⟩

/-- Parsing a stream without a fault succeeds exactly on the words of a program. -/
theorem parse_program_iff {source : Stream} (sound : source.fault = none) {expr : Expr} :
    (∃ target, Phrase.program.parse source = .ok expr target) ↔ Denotes source.words expr := by
  constructor
  · rintro ⟨target, success⟩
    exact (program_sound success).1
  · intro denotes
    exact denotes.parse rfl sound

/-- No words denote two expressions. -/
theorem Denotes.unique {words : List Lexeme} {first second : Expr} (left : Denotes words first)
    (right : Denotes words second) : first = second := by
  let source := Stream.ofScan ⟨words.map (⟨·, 0⟩), none⟩ 0
  have all : source.words = words := by simp [source, Function.comp_def]
  obtain ⟨_, parsed⟩ := left.parse all rfl
  obtain ⟨_, again⟩ := right.parse all rfl
  exact (EStateM.Result.ok.inj (parsed.symm.trans again)).1

/-- A list of tokens is accepted as a program exactly if its words are derived, with the one
expression that they denote. -/
theorem accepts_exactly_the_grammar (tokens : List Token) (endPosition : Int) :
    (∀ expr, (∃ target, Phrase.program.parse (.ofScan ⟨tokens, none⟩ endPosition) =
        .ok expr target) ↔ Denotes (tokens.map Token.lexeme) expr) ∧
      ∀ first second, Denotes (tokens.map Token.lexeme) first →
        Denotes (tokens.map Token.lexeme) second → first = second :=
  ⟨fun _ => parse_program_iff rfl, fun _ _ => Denotes.unique⟩

-- The comparison belongs to the function, whose body ends with it.
example : (parse "\\x -> x < 2").isOk = true ∧ (parse "\\x -> x < 2 < 3").isOk = false := by
  decide +kernel

end MiniFun
