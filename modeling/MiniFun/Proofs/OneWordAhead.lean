import MiniFun.Proofs.ParserTermination

/-! # One word ahead

A phrase of operations or an application is over as soon as the next word cannot continue it. Which
words these are depends on the level alone: no operator of the level or of a tighter one follows,
and no word that begins an argument. A binding form at the end has taken the looser operators as
well, so that fewer words follow it and never more.

The words of the phrase and the next one decide what the parser does. Whatever stands behind them
makes no difference, and neither do the places of the tokens.
-/

namespace MiniFun

open MiniFun.Parser

/-! ## What follows a phrase -/

theorem Operator.symbol_inj {first second : Operator} :
    first.symbol = second.symbol ↔ first = second := by
  constructor
  · intro same
    rw [← Option.some_inj, ← first.ofSymbol?_symbol, same, second.ofSymbol?_symbol]
  · rintro rfl
    rfl

/-- A word is known by its class and its text. -/
private theorem Lexeme.eq_of_outline (word other : Lexeme)
    (same : (word.kind, word.text) = (other.kind, other.text)) : word = other := by
  obtain ⟨kind, text⟩ := Prod.mk.inj same
  cases word with
  | number digits | ident name =>
    cases other <;> cases kind
    exact congrArg _ text
  | keyword keyword =>
    cases other <;> cases kind
    exact congrArg _ (Keyword.text_inj.mp text)
  | operator op =>
    cases other <;> cases kind
    exact congrArg _ (Operator.symbol_inj.mp text)
  | _ => exact (Lexeme.eq_of_kind_eq rfl kind.symm).symm

namespace Token

def outline (token : Token) : Kind × String :=
  (token.kind, token.text)

private theorem words_eq_of_outlines {first second : List Token}
    (same : first.map outline = second.map outline) : first.map lexeme = second.map lexeme := by
  refine (List.map_inj_right Lexeme.eq_of_outline).mp ?_
  rw [List.map_map, List.map_map]
  exact same

private theorem word_eq_of_outline {first second : Option Token}
    (same : first.map outline = second.map outline) : first.map lexeme = second.map lexeme := by
  refine (Option.map_inj_right Lexeme.eq_of_outline).mp ?_
  rw [Option.map_map, Option.map_map]
  exact same

end Token

/-- Whether the word may stand behind a phrase of the category: it begins no argument, and an
operator is looser than the category. -/
def Lexeme.mayFollow (category : Category) : Lexeme → Bool
  | .number _ | .ident _ | .leftParen | .leftBracket => false
  | .keyword .trueWord | .keyword .falseWord => false
  | .operator op => op.level.strength < category.strength
  | _ => true

/-- Where a phrase ends is up to the next word alone. -/
private theorem Stops.of_head? {bound : Nat} {words others : List Lexeme}
    (stops : Stops bound words) (same : others.head? = words.head?) : Stops bound others :=
  fun word strength first => stops word strength (same.symm.trans first)

/-- A phrase that is no atom stops in front of the words that may follow it. -/
private theorem Stops.mayFollow {category : Category} {words : List Lexeme}
    (stops : Stops category.strength words)
    (noAtom : category.strength ≤ Category.application.strength) {next : Lexeme}
    (first : words.head? = some next) : next.mayFollow category = true := by
  have noArgument : next.startsAtom = false := by
    rw [Bool.eq_false_iff]
    intro starts
    have weaker := stops next _ first (Lexeme.strength?_of_startsAtom starts)
    omega
  cases next with
  | number | ident | leftParen | leftBracket => cases noArgument
  | operator op => exact decide_eq_true (stops _ _ first rfl)
  | keyword word => cases word <;> first | rfl | cases noArgument
  | _ => rfl

/-! ## Phrases that go on as long as they can -/

namespace Phrase

/-- The category of the phrases that have operators or arguments in them. -/
def category? : Phrase → Option Category
  | expression => some .expression
  | operations level => some (.operations level)
  | application => some .application
  | program | binding _ | atom | listRest => none

section

variable {phrase : Phrase} {category : Category} (known : phrase.category? = some category)
include known

private theorem strength_le_of_category? : category.strength ≤ Category.application.strength := by
  cases phrase with
  | expression | application =>
    cases known
    decide
  | operations level =>
    cases known
    exact Nat.le_of_lt level.strength_lt
  | program | binding | atom | listRest => cases known

/-- What is parsed is a phrase of the category, and the next word does not continue it. -/
theorem sound {source target : Stream} {expr : Expr}
    (success : phrase.parse source = .ok expr target) :
    ∃ ending taken, source.Advances target taken ∧ Derives category ending taken expr ∧
      Stops (category.bound ending) target.words := by
  change phrase.parseWithin (source.remaining.length + 1) source = _ at success
  have sound := expression_sound (source.remaining.length + 1)
  cases phrase with
  | expression =>
    cases known
    exact sound _ _ _ success
  | operations level =>
    cases known
    exact operations_sound sound level _ _ _ success
  | application =>
    cases known
    exact application_sound sound _ _ _ success
  | program | binding | atom | listRest => cases known

/-- The words of a phrase are taken wherever the next word does not continue it. -/
theorem takes {ending : Ending} {words left : List Lexeme} {expr : Expr}
    (derived : Derives category ending words expr) (stops : Stops (category.bound ending) left) :
    phrase.parse.Takes words left expr := by
  intro source all sound
  have enough : words.length < source.remaining.length + 1 := by
    rw [source.length_remaining, all, List.length_append]
    omega
  refine (?_ : (phrase.parseWithin (source.remaining.length + 1)).Takes words left expr)
    source all sound
  have promised := derived.promised
  cases phrase with
  | expression =>
    cases known
    rw [Category.bound_expression] at stops
    exact promised.expression derived _ _ enough stops
  | operations level =>
    cases known
    exact promised.takes derived nofun _ _ (Nat.le_of_lt enough) stops
  | application =>
    cases known
    exact promised.takes derived nofun _ _ (Nat.le_of_lt enough) stops
  | program | binding | atom | listRest => cases known

/-- Tokens with the words of a phrase are all that is taken from a stream that goes on otherwise. -/
theorem parse_front {ending : Ending} {front rest : List Token} {expr : Expr} {source : Stream}
    (derived : Derives category ending (front.map Token.lexeme) expr)
    (stops : Stops (category.bound ending) (rest.map Token.lexeme))
    (begins : source.remaining = front ++ rest) (sound : source.fault = none) :
    ∃ target, phrase.parse source = .ok expr target ∧ target.remaining = rest := by
  have all : source.words = front.map Token.lexeme ++ rest.map Token.lexeme := by
    rw [Stream.words, begins, List.map_append]
  obtain ⟨target, success, left, -⟩ := takes known derived stops source all sound
  refine ⟨target, success, ?_⟩
  -- What is left are the last tokens of the stream, and there are as many as in the rest.
  obtain ⟨taken, -, split⟩ := takes_token success
  have length : target.remaining.length = rest.length := by
    rw [target.length_remaining, left, List.length_map]
  exact (List.append_inj' (split.symm.trans begins) length).2

end

end Phrase

/-- An expression, operations of any level and an application look one word ahead. If the parser
succeeds, then it does the same on every stream that begins with tokens of the same classes and
texts, the next one included, and leaves the rest. The next word begins no argument, and it is no
operator of the level or of a tighter one; behind an expression it is no operator at all. -/
theorem phrases_look_one_word_ahead {phrase : Phrase} {category : Category}
    (known : phrase.category? = some category) {source target : Stream} {expr : Expr}
    (success : phrase.parse source = .ok expr target) :
    ∃ taken, source.remaining = taken ++ target.remaining ∧
      (∀ (other : Stream) (front rest : List Token), other.remaining = front ++ rest →
        other.fault = none → front.map Token.outline = taken.map Token.outline →
        rest.head?.map Token.outline = target.remaining.head?.map Token.outline →
        ∃ target', phrase.parse other = .ok expr target' ∧ target'.remaining = rest) ∧
      ∀ next, target.remaining.head? = some next → next.lexeme.mayFollow category = true := by
  obtain ⟨ending, words, advances, derived, stops⟩ := Phrase.sound known success
  obtain ⟨taken, -, split⟩ := Phrase.takes_token success
  obtain rfl := advances.words_taken split
  refine ⟨taken, split, ?_, ?_⟩
  · intro other front rest begins sound same ahead
    rw [← Token.words_eq_of_outlines same] at derived
    refine Phrase.parse_front known derived (stops.of_head? ?_) begins sound
    rw [Stream.words, List.head?_map, List.head?_map, Token.word_eq_of_outline ahead]
  · intro next first
    have weaker : Stops category.strength target.words := stops.mono (category.bound_le ending)
    refine weaker.mayFollow (Phrase.strength_le_of_category? known) ?_
    rw [Stream.words, List.head?_map, first]
    rfl

/-- What a parser gives can be found by evaluation. -/
private theorem exists_ok_of_run' {α : Type} {parser : Parser α} {source : Stream} {result : α}
    (given : EStateM.run' parser source = some result) :
    ∃ target, parser source = .ok result target := by
  change EStateM.run' (fun _ => parser source) source = some result at given
  cases ended : parser source with
  | ok other target =>
    rw [ended] at given
    cases given
    exact ⟨target, rfl⟩
  | error failure target =>
    rw [ended] at given
    cases given

/-- A function is the last operand of a sum, so that it takes the looser operator behind its
parameter as well. The sum ends at the closing parenthesis, whatever follows that. -/
theorem phrases_look_one_word_ahead_behind_function :
    let front : List Lexeme := [.number "1", .operator .plus, .backslash, .ident "x", .arrow,
      .ident "x", .operator .cons, .number "2", .rightParen]
    let expr : Expr := .binary .plus (.int 1)
      (.lambda "x" (.binary .cons (.var "x") (.int 2)))
    let stream (next : Lexeme) (place : Nat) : Stream :=
      .ofScan ⟨(front ++ [next]).map (⟨·, place⟩), none⟩ place
    (∃ target, (Phrase.operations .sum).parse (stream (.ident "y") 0) = .ok expr target ∧
      target.remaining = [⟨.rightParen, 0⟩, ⟨.ident "y", 0⟩]) ∧
    ∃ target, (Phrase.operations .sum).parse (stream .comma 7) = .ok expr target ∧
      target.remaining = [⟨.rightParen, 7⟩, ⟨.comma, 7⟩] := by
  intro front expr stream
  obtain ⟨target, success, remaining⟩ : ∃ target,
      (Phrase.operations .sum).parse (stream (.ident "y") 0) = .ok expr target ∧
        target.remaining = [⟨.rightParen, 0⟩, ⟨.ident "y", 0⟩] := by
    obtain ⟨_, ran⟩ := exists_ok_of_run'
      (by decide +kernel : EStateM.run'
        (do return (← (Phrase.operations .sum).parse, (← get).remaining)) (stream (.ident "y") 0) =
          some (expr, [⟨.rightParen, 0⟩, ⟨.ident "y", 0⟩]))
    obtain ⟨result, target, success, rest⟩ := bind_eq_ok_iff.mp ran
    obtain ⟨given, -⟩ := EStateM.Result.ok.inj rest
    obtain ⟨rfl, left⟩ := Prod.mk.inj given
    exact ⟨target, success, left⟩
  obtain ⟨taken, split, again, -⟩ :=
    @phrases_look_one_word_ahead (.operations .sum) _ rfl _ _ _ success
  refine ⟨⟨target, success, remaining⟩, ?_⟩
  refine again (stream .comma 7) ((stream .comma 7).remaining.take 8) _ rfl rfl ?_ ?_
  · have begun : taken = (stream (.ident "y") 0).remaining.take 8 := by
      rw [remaining] at split
      exact List.append_cancel_right split.symm
    rw [begun]
    decide +kernel
  · rw [remaining]
    rfl

end MiniFun
