import Mathlib.Tactic.Choose
import MiniFun.Proofs.FailurePoint

/-! # Parsers as dialogues

All that a parser learns of its stream it learns by asking for the next token, which it either
leaves in place or takes. It goes on with the word of that token alone: where the token stands is
used only to report that it was refused, and a token is refused at once or not at all.

A dialogue is such a course of requests, written down as a tree. Every parser of the grammar is the
run of a dialogue. A property of all runs then needs one induction, on the dialogue, in place of
one argument for each rule of the grammar.
-/

namespace MiniFun

inductive Request where
  /-- The next token, which stays in place. -/
  | look
  /-- The next token, which is taken. -/
  | take
deriving DecidableEq, Repr, Inhabited

namespace Request

def serve : Request → Parser (Option Token)
  | look => Parser.peek
  | take => Parser.take

def leaves : Request → List Token → List Token
  | look, tokens => tokens
  | take, tokens => tokens.tail

theorem serve_token (request : Request) {stream : Stream} {token : Token} {rest : List Token}
    (ahead : stream.remaining = token :: rest) :
    ∃ target, request.serve stream = .ok (some token) target ∧
      target.remaining = request.leaves stream.remaining ∧ stream.SameEnd target := by
  rcases stream with ⟨_ | found, _ | ⟨next, behind⟩, fault, endPosition⟩ <;> cases ahead <;>
    cases request <;> exact ⟨_, rfl, rfl, rfl, rfl⟩

/-- The end of the input stays where it is. -/
theorem serve_ending (request : Request) {stream : Stream} (nothing : stream.remaining = [])
    (sound : stream.fault = none) : request.serve stream = .ok none stream := by
  rcases stream with ⟨_ | found, _ | ⟨next, behind⟩, fault, endPosition⟩ <;> cases nothing
  cases sound
  cases request <;> rfl

/-- A request fails only with the error that the stream has left. -/
theorem serve_error {request : Request} {source target : Stream} {failure : Failure}
    (failed : request.serve source = .error failure target) : ∃ cause, failure = .error cause := by
  cases request with
  | look =>
    obtain ⟨-, cause, rfl, -⟩ := Parser.peek_error failed
    exact ⟨cause, rfl⟩
  | take =>
    obtain ⟨-, cause, rfl, -⟩ := Parser.take_error failed
    exact ⟨cause, rfl⟩

end Request

/-- Whether the fault is against the grammar, and neither one of the scan nor worded by host
code. -/
def SyntaxFault.isGrammatical : SyntaxFault → Bool
  | strayCharacter _ | reported _ => false
  | unexpected _ | expected _ _ | missingParameter | chainedComparison _ => true

/-- The faults for which parsers refuse a token. -/
abbrev Refusal := { fault : SyntaxFault // fault.isGrammatical = true }

inductive ParseLimit where
  | nesting
  | numeral (digits : Nat)
deriving DecidableEq, Repr, Inhabited

def ParseLimit.failure : ParseLimit → Failure
  | nesting => .tooDeep
  | numeral digits => .longNumeral digits

/-- A course of requests, each of which depends on the words found so far. -/
inductive Dialogue (α : Type) where
  | done (value : α)
  | giveUp (limit : ParseLimit)
  /-- What was found is refused if there is a verdict on its word. -/
  | ask (request : Request) (verdict : Option Lexeme → Option Refusal)
      (next : Option Lexeme → Dialogue α)

namespace Dialogue

variable {α β : Type}

def run : Dialogue α → Parser α
  | done value => pure value
  | giveUp limit => throw limit.failure
  | ask request verdict next => do
    let found ← request.serve
    match verdict (found.map Token.lexeme) with
    | some refusal => Parser.reject refusal.val found
    | none => (next (found.map Token.lexeme)).run

def bind : Dialogue α → (α → Dialogue β) → Dialogue β
  | done value, further => further value
  | giveUp limit, _ => .giveUp limit
  | ask request verdict next, further =>
    .ask request verdict fun word => (next word).bind further

theorem run_bind (dialogue : Dialogue α) (further : α → Dialogue β) :
    (dialogue.bind further).run = dialogue.run >>= fun value => (further value).run := by
  induction dialogue with
  | done value => exact (pure_bind _ _).symm
  | giveUp limit => rfl
  | ask request verdict next ih =>
    simp only [bind, run, bind_assoc]
    refine bind_congr fun found => ?_
    split
    · rfl
    · exact ih _

end Dialogue

/-- The parser holds a dialogue with its stream, and does nothing else. -/
def Parser.Conducted {α : Type} (parser : Parser α) : Prop :=
  ∃ dialogue : Dialogue α, dialogue.run = parser

/-- All tokens with the word are either refused for one fault or are followed by one parser. -/
inductive Parser.Reacts {α : Type} (reaction : Option Token → Parser α) (word : Option Lexeme) :
    Prop
  | refuses (refusal : Refusal)
      (refused : ∀ found, found.map Token.lexeme = word →
        reaction found = Parser.reject refusal.val found)
  | goesOn (next : Parser α) (conducted : next.Conducted)
      (followed : ∀ found, found.map Token.lexeme = word → reaction found = next)

private theorem Parser.Reacts.unexpected {α : Type} {reaction : Option Token → Parser α}
    {word : Option Lexeme} (refused : ∀ found, found.map Token.lexeme = word →
      reaction found = Parser.reject (.unexpected (found.map Token.text)) found) :
    Reacts reaction word := by
  refine .refuses ⟨.unexpected (word.map Lexeme.text), rfl⟩ fun found same => ?_
  rw [refused found same, ← same, Option.map_map]
  rfl

namespace Parser.Conducted

variable {α β : Type}

/-! ## Steps of dialogues -/

theorem pure (value : α) : Conducted (Pure.pure value : Parser α) := ⟨.done value, rfl⟩

theorem tooDeep : Conducted (throw .tooDeep : Parser α) := ⟨.giveUp .nesting, rfl⟩

theorem bind {first : Parser α} {second : α → Parser β} (front : first.Conducted)
    (back : ∀ value, (second value).Conducted) : Conducted (first >>= second) := by
  obtain ⟨dialogue, rfl⟩ := front
  choose further further_run using back
  refine ⟨dialogue.bind further, ?_⟩
  rw [Dialogue.run_bind]
  exact bind_congr further_run

/-- A request can be followed by whatever looks at no more than the word that was found. -/
theorem ask (request : Request) {reaction : Option Token → Parser α}
    (reacts : ∀ word, Reacts reaction word) : Conducted (request.serve >>= reaction) := by
  have answer : ∀ word : Option Lexeme, ∃ verdict : Option Refusal, ∃ next : Dialogue α,
      ∀ found : Option Token, found.map Token.lexeme = word → reaction found =
        match verdict with
        | some refusal => reject refusal.val found
        | none => next.run := by
    intro word
    cases reacts word with
    | refuses refusal refused => exact ⟨some refusal, .giveUp .nesting, refused⟩
    | goesOn next conducted followed =>
      obtain ⟨dialogue, rfl⟩ := conducted
      exact ⟨none, dialogue, followed⟩
  choose verdict next answered using answer
  refine ⟨.ask request verdict next, ?_⟩
  rw [Dialogue.run]
  exact bind_congr fun found => (answered _ found rfl).symm

/-- A request with an answer that is not refused. -/
private theorem askWord (request : Request) {next : Option Lexeme → Parser α}
    (conducted : ∀ word, (next word).Conducted) :
    Conducted (request.serve >>= fun found => next (found.map Token.lexeme)) :=
  ask request fun word => .goesOn (next word) (conducted word) fun _ same => by rw [same]

private theorem take_then {next : Parser α} (conducted : next.Conducted) :
    Conducted (take >>= fun _ => next) :=
  askWord .take fun _ => conducted

private theorem peekLexeme : Conducted peekLexeme := askWord .look pure

/-- Whether a demand is met shows in the word. -/
private theorem accepts_word (demand : Demand) {found other : Option Token}
    (same : found.map Token.lexeme = other.map Token.lexeme) :
    demand.accepts found = demand.accepts other := by
  rcases found with _ | ⟨word, position⟩ <;> rcases other with _ | ⟨word', position'⟩ <;>
    cases same <;> rfl

private def asToken : Option Lexeme → Option Token :=
  Option.map fun word => ⟨word, 0⟩

private theorem lexeme_asToken (word : Option Lexeme) : (asToken word).map Token.lexeme = word := by
  cases word <;> rfl

private theorem sees (demand : Demand) : Conducted (sees demand) := by
  refine ask .look fun word => .goesOn (Pure.pure (demand.accepts (asToken word))) (pure _) ?_
  intro found same
  rw [accepts_word demand (same.trans (lexeme_asToken word).symm)]

/-- What was demanded can be followed by whatever looks at no more than its word. -/
private theorem expect_then (demand : Demand) (next : Option Lexeme → Parser α)
    (conducted : ∀ word, (next word).Conducted) :
    Conducted (expect demand >>= fun found => next (found.map Token.lexeme)) := by
  rw [expect, bind_assoc]
  refine ask .look fun word => ?_
  have same_accepts : ∀ found : Option Token, found.map Token.lexeme = word →
      demand.accepts found = demand.accepts (asToken word) := fun found same =>
    accepts_word demand (same.trans (lexeme_asToken word).symm)
  cases accepted : demand.accepts (asToken word) with
  | true =>
    refine .goesOn _ (askWord .take conducted) fun found same => ?_
    rw [if_pos ((same_accepts found same).trans accepted)]
    rfl
  | false =>
    refine .refuses ⟨.expected demand.wanted (word.map Lexeme.text), rfl⟩ fun found same => ?_
    rw [if_neg (by simp [same_accepts found same, accepted]), ← same, Option.map_map]
    rfl

private theorem expectKind (kind : Kind) : Conducted (expectKind kind) :=
  expect_then (.ofKind kind) (fun _ => Pure.pure ()) fun _ => pure ()

private theorem expectKeyword (word : Keyword) : Conducted (expectKeyword word) :=
  expect_then (.ofKeyword word) (fun _ => Pure.pure ()) fun _ => pure ()

private theorem expectIdent : Conducted expectIdent := by
  have same : Parser.expectIdent = expect (.ofKind .ident) >>= fun found =>
      Pure.pure ((found.map Token.lexeme).elim "" Lexeme.text) :=
    bind_congr fun found => by cases found <;> rfl
  rw [same]
  exact expect_then _ (fun word => Pure.pure (word.elim "" Lexeme.text)) fun _ => pure _

/-! ## Atoms -/

section Grammar

variable {expr : Parser Expr} (inner : expr.Conducted)
include inner

omit inner in
private theorem numeral (digits : String) : Conducted (numeral digits) := by
  rw [Parser.numeral]
  split
  · exact pure _
  · exact ⟨.giveUp (.numeral digits.length), rfl⟩

private theorem furtherItems (limit : Nat) : Conducted (furtherItems expr limit) := by
  induction limit with
  | zero => exact tooDeep
  | succ limit ih =>
    refine (sees (.ofKind .comma)).bind fun found => ?_
    split
    · exact take_then (inner.bind fun item => ih.bind fun items => pure (item :: items))
    · exact pure []

private theorem listRest (limit : Nat) : Conducted (listRest limit expr) := by
  refine (sees (.ofKind .rightBracket)).bind fun found => ?_
  split
  · exact (expectKind .rightBracket).bind fun _ => pure Expr.nil
  · exact inner.bind fun first => (furtherItems inner limit).bind fun rest =>
      (expectKind .rightBracket).bind fun _ => pure (Expr.ofItems (first :: rest))

private theorem atom (limit : Nat) : Conducted (atom limit expr) := by
  refine ask .take fun word => ?_
  rcases word with _ | word
  · exact .unexpected fun found same => by rw [same]
  cases word with
  | number digits => exact .goesOn _ (numeral digits) fun found same => by rw [same]
  | ident name => exact .goesOn _ (pure (.var name)) fun found same => by rw [same]
  | leftParen =>
    exact .goesOn _ (inner.bind fun tree => (expectKind .rightParen).bind fun _ => pure tree)
      fun found same => by rw [same]
  | leftBracket => exact .goesOn _ (listRest inner limit) fun found same => by rw [same]
  | keyword word =>
    cases word with
    | trueWord => exact .goesOn _ (pure (.bool true)) fun found same => by rw [same]
    | falseWord => exact .goesOn _ (pure (.bool false)) fun found same => by rw [same]
    | _ => exact .unexpected fun found same => by rw [same]
  | _ => exact .unexpected fun found same => by rw [same]

/-! ## Binding forms -/

omit inner in
private theorem params (limit : Nat) : Conducted (params limit) := by
  induction limit with
  | zero => exact tooDeep
  | succ limit ih =>
    refine peekLexeme.bind fun word => ?_
    split
    · exact take_then (ih.bind fun names => pure _)
    · exact pure []

private theorem function (limit : Nat) : Conducted (function limit expr) := by
  refine (expectKind .backslash).bind fun _ => (params limit).bind fun names => ?_
  split
  · exact ask .look fun word => .refuses ⟨.missingParameter, rfl⟩ fun _ _ => rfl
  · exact (expectKind .arrow).bind fun _ => inner.bind fun body => pure _

private theorem definition (limit : Nat) : Conducted (definition limit expr) :=
  (expectKeyword .letWord).bind fun _ => expectIdent.bind fun _ => (params limit).bind fun _ =>
    (expectKind .equals).bind fun _ => inner.bind fun _ => (expectKeyword .inWord).bind fun _ =>
      inner.bind fun _ => pure _

private theorem conditional : Conducted (conditional expr) :=
  (expectKeyword .ifWord).bind fun _ => inner.bind fun _ => (expectKeyword .thenWord).bind fun _ =>
    inner.bind fun _ => (expectKeyword .elseWord).bind fun _ => inner.bind fun _ => pure _

private theorem bindingForm (limit : Nat) (form : BindingForm) :
    Conducted (bindingForm limit expr form) := by
  cases form with
  | function => exact function inner limit
  | definition => exact definition inner limit
  | conditional => exact conditional inner

/-! ## Application and operators -/

omit inner in
private theorem arguments {atom : Parser Expr} (conducted : atom.Conducted) (limit : Nat)
    (function : Expr) : Conducted (arguments atom limit function) := by
  induction limit generalizing function with
  | zero => exact tooDeep
  | succ limit ih =>
    refine peekLexeme.bind fun word => ?_
    split
    · exact conducted.bind fun _ => ih _
    · exact pure function

private theorem application (limit : Nat) : Conducted (application limit expr) := by
  refine peekLexeme.bind fun word => ?_
  split
  · exact bindingForm inner limit _
  · exact (atom inner limit).bind fun _ => arguments (atom inner limit) limit _

end Grammar

private theorem operator? (level : Level) : Conducted (operator? level) := by
  refine peekLexeme.bind fun word => ?_
  split
  · split
    · exact take_then (pure _)
    · exact pure none
  · exact pure none

section Operators

variable {operand : Parser Expr} (conducted : operand.Conducted) (level : Level)
include conducted

private theorem leftChain (limit : Nat) : Conducted (leftChain level operand limit) := by
  have further : ∀ left, Conducted (leftOperands level operand limit left) := by
    induction limit with
    | zero => exact fun _ => tooDeep
    | succ limit ih =>
      refine fun left => (operator? level).bind fun found => ?_
      split
      · exact conducted.bind fun _ => ih _
      · exact pure left
  exact conducted.bind further

private theorem rightChain (limit : Nat) : Conducted (rightChain level operand limit) := by
  have further : ∀ left, Conducted (rightOperands level operand limit left) := by
    induction limit with
    | zero => exact fun _ => tooDeep
    | succ limit ih =>
      refine fun left => (operator? level).bind fun found => ?_
      split
      · exact conducted.bind fun next => (ih next).bind fun _ => pure _
      · exact pure left
  exact conducted.bind further

/-- Another operator of the level is refused, whatever else is found is left in place. -/
private theorem noChain : Conducted (noChain level operand) := by
  refine conducted.bind fun left => (operator? level).bind fun found => ?_
  rcases found with _ | op
  · exact pure left
  refine conducted.bind fun right => ask .look fun word => ?_
  by_cases chained : ∃ second : Operator, word = some (.operator second) ∧ second.level = level
  · obtain ⟨second, rfl, same⟩ := chained
    refine .refuses ⟨.chainedComparison second, rfl⟩ fun found is_second => ?_
    simp only [is_second, if_pos same]
  · refine .goesOn _ (pure (.binary op left right)) fun found is_word => ?_
    simp only [is_word]
    split
    · exact if_neg fun same => chained ⟨_, rfl, same⟩
    · rfl

end Operators

/-! ## Phrases -/

theorem operations {expr : Parser Expr} (inner : expr.Conducted) (limit : Nat) (level : Level) :
    Conducted (operations limit expr level) := by
  have product := leftChain (application inner limit) .product limit
  have sum := leftChain product .sum limit
  have construction := rightChain sum .construction limit
  have comparison := noChain construction .comparison
  have conjunction := leftChain comparison .conjunction limit
  cases level with
  | product => exact product
  | sum => exact sum
  | construction => exact construction
  | comparison => exact comparison
  | conjunction => exact conjunction
  | disjunction => exact leftChain conjunction .disjunction limit

theorem expression (limit : Nat) : Conducted (expression limit) := by
  induction limit with
  | zero => exact tooDeep
  | succ limit ih =>
    refine peekLexeme.bind fun word => ?_
    split
    · exact bindingForm ih limit _
    · exact operations ih limit .disjunction

theorem program (limit : Nat) : Conducted (program limit) := by
  refine (expression limit).bind fun expr => ask .look fun word => ?_
  rcases word with _ | word
  · refine .goesOn _ (pure expr) fun found same => ?_
    rw [Option.map_eq_none_iff.mp same]
  · refine .unexpected fun found same => ?_
    obtain ⟨token, rfl, -⟩ := Option.map_eq_some_iff.mp same
    rfl

end Parser.Conducted

theorem Phrase.conducted (phrase : Phrase) (limit : Nat) :
    (phrase.parseWithin limit).Conducted := by
  have inner := Parser.Conducted.expression limit
  cases phrase with
  | program => exact .program limit
  | expression => exact inner
  | binding form => exact .bindingForm inner limit form
  | operations level => exact .operations inner limit level
  | application => exact .application inner limit
  | atom => exact .atom inner limit
  | listRest => exact .listRest inner limit

/-- The limit with which a phrase is taken from a stream. -/
theorem Phrase.parse_apply (phrase : Phrase) (source : Stream) :
    phrase.parse source = phrase.parseWithin (source.remaining.length + 1) source := rfl

end MiniFun
