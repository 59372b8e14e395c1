import MiniFun.Parser
import MiniFun.Proofs.Sequencing

/-! # Words taken from a stream

What a parser does with a stream shows in two things: the words that it takes from the front, and
the words that it leaves. Whether a token was read ahead shows in neither. `Stream.Advances` says
of a finished run which words were taken, and `Parser.Takes` says of a parser that it takes given
words wherever they stand in front of given others. The first is what a successful run is known by,
the second is what a run that is still to come is promised by; both compose along `>>=`.
-/

namespace MiniFun

/-- Whether the word is the only one of its kind. -/
def Lexeme.isPunctuation : Lexeme → Bool
  | arrow | equals | backslash | leftParen | rightParen | leftBracket | rightBracket | comma => true
  | number _ | ident _ | keyword _ | operator _ => false

theorem Lexeme.eq_of_kind_eq {lexeme other : Lexeme} (alone : lexeme.isPunctuation = true)
    (same : other.kind = lexeme.kind) : other = lexeme := by
  cases lexeme <;> cases alone <;> cases other <;> cases same <;> rfl

namespace Stream

def words (stream : Stream) : List Lexeme :=
  stream.remaining.map Token.lexeme

@[simp]
theorem words_ofScan (scan : Scan) (endPosition : Int) :
    (ofScan scan endPosition).words = scan.tokens.map Token.lexeme := rfl

theorem length_remaining (stream : Stream) : stream.remaining.length = stream.words.length := by
  simp [words]

/-- The target is the source with the given words taken from its front. -/
structure Advances (source target : Stream) (taken : List Lexeme) : Prop where
  words_eq : source.words = taken ++ target.words
  fault_eq : target.fault = source.fault

theorem Advances.trans {source middle target : Stream} {first second : List Lexeme}
    (front : source.Advances middle first) (back : middle.Advances target second) :
    source.Advances target (first ++ second) :=
  ⟨by rw [front.words_eq, back.words_eq, List.append_assoc], back.fault_eq.trans front.fault_eq⟩

end Stream

namespace Parser

/-! ## What a successful run took -/

/-- What is found ahead is the first word, and it stays there. -/
theorem peek_ok {source target : Stream} {found : Option Token}
    (success : peek source = .ok found target) :
    found.map Token.lexeme = source.words.head? ∧ source.Advances target [] := by
  rcases source with ⟨_ | token, _ | ⟨next, rest⟩, _ | cause, endPosition⟩ <;> cases success <;>
    exact ⟨rfl, rfl, rfl⟩

/-- Nothing is found only at the end of a stream without a fault. -/
theorem peek_none {source target : Stream} (success : peek source = .ok none target) :
    source.words = [] ∧ source.fault = none := by
  rcases source with ⟨_ | token, _ | ⟨next, rest⟩, _ | cause, endPosition⟩ <;> cases success
  exact ⟨rfl, rfl⟩

theorem take_ok {source target : Stream} {found : Option Token}
    (success : take source = .ok found target) :
    source.Advances target (found.map Token.lexeme).toList := by
  rcases source with ⟨_ | token, _ | ⟨next, rest⟩, _ | cause, endPosition⟩ <;> cases success <;>
    exact ⟨rfl, rfl⟩

theorem peekLexeme_ok {source target : Stream} {found : Option Lexeme}
    (success : peekLexeme source = .ok found target) :
    found = source.words.head? ∧ source.Advances target [] := by
  obtain ⟨token, state, peeked, result⟩ := bind_eq_ok_iff.mp success
  obtain ⟨rfl, rfl⟩ := pure_eq_ok_iff.mp result
  exact peek_ok peeked

/-- The kind of the first of the given words, or the end of the input. -/
def kindAhead : List Lexeme → Kind
  | [] => .endOfInput
  | lexeme :: _ => lexeme.kind

theorem sees_ok {source target : Stream} {kind : Kind} {answer : Bool}
    (success : sees (.ofKind kind) source = .ok answer target) :
    (answer = true ↔ kindAhead source.words = kind) ∧ source.Advances target [] := by
  obtain ⟨found, state, peeked, result⟩ := bind_eq_ok_iff.mp success
  obtain ⟨rfl, rfl⟩ := pure_eq_ok_iff.mp result
  obtain ⟨ahead, advance⟩ := peek_ok peeked
  refine ⟨?_, advance⟩
  rw [Demand.accepts_ofKind]
  cases found with
  | none => rw [List.head?_eq_none_iff.mp ahead.symm]; rfl
  | some token =>
    obtain ⟨rest, words⟩ := List.head?_eq_some_iff.mp ahead.symm
    rw [words]; rfl

/-- The token that was found ahead is the one that is taken next. -/
theorem take_of_peek {source middle : Stream} {found : Option Token}
    (peeked : peek source = .ok found middle) : ∃ target, take middle = .ok found target := by
  rcases source with ⟨_ | token, _ | ⟨next, rest⟩, _ | cause, endPosition⟩ <;> cases peeked <;>
    exact ⟨_, rfl⟩

/-- Something of the kind of a punctuation mark is that mark. -/
private theorem word_of_kind {lexeme : Lexeme} (alone : lexeme.isPunctuation = true)
    {found : Option Token} (same : foundKind found = lexeme.kind) :
    (found.map Token.lexeme).toList = [lexeme] := by
  cases found with
  | none => cases lexeme <;> cases same
  | some token =>
    obtain rfl := Lexeme.eq_of_kind_eq alone same
    rfl

/-- The word that was seen ahead is the one that is taken next. -/
theorem take_after_sees (lexeme : Lexeme) (alone : lexeme.isPunctuation = true) {source middle target : Stream}
    {token : Option Token} (seen : sees (.ofKind lexeme.kind) source = .ok true middle)
    (taken : take middle = .ok token target) : source.Advances target [lexeme] := by
  obtain ⟨found, state, peeked, result⟩ := bind_eq_ok_iff.mp seen
  obtain ⟨accepted, rfl⟩ := pure_eq_ok_iff.mp result
  obtain ⟨other, same⟩ := take_of_peek peeked
  obtain ⟨rfl, rfl⟩ := EStateM.Result.ok.inj (same.symm.trans taken)
  rw [Demand.accepts_ofKind] at accepted
  rw [← word_of_kind alone accepted]
  exact (peek_ok peeked).2.trans (take_ok taken)

theorem expect_ok {demand : Demand} {source target : Stream} {found : Option Token}
    (success : expect demand source = .ok found target) :
    demand.accepts found = true ∧ source.Advances target (found.map Token.lexeme).toList := by
  obtain ⟨ahead, middle, peeked, result⟩ := bind_eq_ok_iff.mp success
  split at result
  · rename_i accepted
    obtain ⟨other, taken⟩ := take_of_peek peeked
    obtain ⟨rfl, rfl⟩ := EStateM.Result.ok.inj (taken.symm.trans result)
    exact ⟨accepted, (peek_ok peeked).2.trans (take_ok taken)⟩
  · cases result

theorem expectKind_ok (lexeme : Lexeme) (alone : lexeme.isPunctuation = true) {source target : Stream}
    (success : expectKind lexeme.kind source = .ok () target) : source.Advances target [lexeme] := by
  obtain ⟨found, state, expected, result⟩ := bind_eq_ok_iff.mp success
  obtain ⟨-, rfl⟩ := pure_eq_ok_iff.mp result
  obtain ⟨accepted, advance⟩ := expect_ok expected
  rw [Demand.accepts_ofKind] at accepted
  rw [← word_of_kind alone accepted]
  exact advance

theorem expectKeyword_ok {word : Keyword} {source target : Stream}
    (success : expectKeyword word source = .ok () target) :
    source.Advances target [.keyword word] := by
  obtain ⟨found, state, expected, result⟩ := bind_eq_ok_iff.mp success
  obtain ⟨-, rfl⟩ := pure_eq_ok_iff.mp result
  obtain ⟨accepted, advance⟩ := expect_ok expected
  rw [Demand.accepts_ofKeyword] at accepted
  rw [accepted] at advance
  exact advance

theorem expectIdent_ok {name : String} {source target : Stream}
    (success : expectIdent source = .ok name target) : source.Advances target [.ident name] := by
  obtain ⟨found, state, expected, result⟩ := bind_eq_ok_iff.mp success
  obtain ⟨rfl, rfl⟩ := pure_eq_ok_iff.mp result
  obtain ⟨accepted, advance⟩ := expect_ok expected
  rw [Demand.accepts_ofKind] at accepted
  rcases found with _ | ⟨lexeme, position⟩
  · cases accepted
  · cases lexeme <;> first | exact advance | cases accepted

/-- Taking the token whose word was found ahead takes this word. -/
theorem take_after_peekLexeme {source middle target : Stream} {found : Option Lexeme}
    {token : Option Token} (peeked : peekLexeme source = .ok found middle)
    (taken : take middle = .ok token target) : source.Advances target found.toList := by
  obtain ⟨ahead, state, looked, result⟩ := bind_eq_ok_iff.mp peeked
  obtain ⟨rfl, rfl⟩ := pure_eq_ok_iff.mp result
  obtain ⟨other, same⟩ := take_of_peek looked
  obtain ⟨rfl, rfl⟩ := EStateM.Result.ok.inj (same.symm.trans taken)
  exact (peek_ok looked).2.trans (take_ok taken)

/-- Either an operator of the level was taken, or there was none and nothing was taken. -/
theorem operator?_ok {level : Level} {source target : Stream} {found : Option Operator}
    (success : operator? level source = .ok found target) :
    (∃ op, found = some op ∧ op.level = level ∧ source.Advances target [.operator op]) ∨
      (found = none ∧ source.Advances target [] ∧
        ∀ op, source.words.head? = some (.operator op) → op.level ≠ level) := by
  obtain ⟨ahead, middle, peeked, result⟩ := bind_eq_ok_iff.mp success
  obtain ⟨first, advance⟩ := peekLexeme_ok peeked
  split at result
  · rename_i op
    split at result
    · rename_i atLevel
      obtain ⟨token, state, taken, rest⟩ := bind_eq_ok_iff.mp result
      obtain ⟨rfl, rfl⟩ := pure_eq_ok_iff.mp rest
      exact .inl ⟨op, rfl, atLevel, take_after_peekLexeme peeked taken⟩
    · rename_i otherLevel
      obtain ⟨rfl, rfl⟩ := pure_eq_ok_iff.mp result
      refine .inr ⟨rfl, advance, ?_⟩
      intro other word
      obtain rfl : op = other := by simpa using first.trans word
      exact otherLevel
  · rename_i noOperator
    obtain ⟨rfl, rfl⟩ := pure_eq_ok_iff.mp result
    exact .inr ⟨rfl, advance, fun op word => (noOperator op (first.trans word)).elim⟩

/-- The parameters are all identifiers up to the first word that is none. -/
theorem params_ok {limit : Nat} {source target : Stream} {names : List String}
    (success : params limit source = .ok names target) :
    source.Advances target (names.map .ident) := by
  induction limit generalizing source names with
  | zero => cases success
  | succ limit ih =>
    obtain ⟨ahead, middle, peeked, result⟩ := bind_eq_ok_iff.mp success
    split at result
    · rename_i name
      obtain ⟨token, state, taken, rest⟩ := bind_eq_ok_iff.mp result
      obtain ⟨others, final, more, result⟩ := bind_eq_ok_iff.mp rest
      obtain ⟨rfl, rfl⟩ := pure_eq_ok_iff.mp result
      exact (take_after_peekLexeme peeked taken).trans (ih more)
    · obtain ⟨rfl, rfl⟩ := pure_eq_ok_iff.mp result
      exact (peekLexeme_ok peeked).2

/-! ## What a parser will take -/

/-- The parser takes the first words and gives the result wherever the others follow them. -/
def Takes {α : Type} (parser : Parser α) (taken left : List Lexeme) (result : α) : Prop :=
  ∀ source : Stream, source.words = taken ++ left → source.fault = none →
    ∃ target, parser source = .ok result target ∧ target.words = left ∧ target.fault = none

theorem Takes.bind {α β : Type} {first : Parser α} {second : α → Parser β}
    {front back left : List Lexeme} {middle : α} {result : β}
    (before : first.Takes front (back ++ left) middle) (after : (second middle).Takes back left result) :
    (first >>= second).Takes (front ++ back) left result := by
  intro source words sound
  obtain ⟨state, ran, words, sound⟩ := before source (by rw [words, List.append_assoc]) sound
  obtain ⟨target, finished, rest⟩ := after state words sound
  exact ⟨target, bind_eq_ok_iff.mpr ⟨middle, state, ran, finished⟩, rest⟩

theorem takes_pure {α : Type} (result : α) (left : List Lexeme) :
    (pure result : Parser α).Takes [] left result :=
  fun source words sound => ⟨source, rfl, words, sound⟩

theorem Takes.bind_pure {α β : Type} {first : Parser α} {taken left : List Lexeme} {middle : α}
    (before : first.Takes taken left middle) (f : α → β) :
    (first >>= fun value => pure (f value)).Takes taken left (f middle) := by
  rw [← List.append_nil taken]
  exact .bind before (takes_pure _ _)

/-- A parser that begins by looking ahead goes on with what it finds. -/
theorem Takes.peek_bind {α : Type} {next : Option Token → Parser α} {taken left : List Lexeme}
    {result : α}
    (after : ∀ found : Option Token, found.map Token.lexeme = (taken ++ left).head? →
      (next found).Takes taken left result) : (peek >>= next).Takes taken left result := by
  intro source words sound
  have looked : ∃ found state, peek source = .ok found state := by
    rcases source with ⟨_ | token, _ | ⟨next, rest⟩, _ | cause, endPosition⟩ <;>
      first | exact ⟨_, _, rfl⟩ | cases sound
  obtain ⟨found, state, peeked⟩ := looked
  obtain ⟨ahead, advance⟩ := peek_ok peeked
  obtain ⟨target, finished, rest⟩ := after found (by rw [ahead, words]) state
    (by rw [← words, advance.words_eq, List.nil_append]) (advance.fault_eq.trans sound)
  exact ⟨target, bind_eq_ok_iff.mpr ⟨found, state, peeked, finished⟩, rest⟩

/-- A parser that begins by taking a word goes on behind it. -/
theorem Takes.take_bind {α : Type} {next : Option Token → Parser α} {word : Lexeme}
    {taken left : List Lexeme} {result : α}
    (after : ∀ position, (next (some ⟨word, position⟩)).Takes taken left result) :
    (take >>= next).Takes (word :: taken) left result := by
  intro source words sound
  have ran : ∃ position state, take source = .ok (some ⟨word, position⟩) state ∧
      state.words = taken ++ left ∧ state.fault = none := by
    rcases source with ⟨_ | ⟨lexeme, position⟩, _ | ⟨⟨first, place⟩, rest⟩, fault, endPosition⟩
    · cases words
    all_goals
      obtain ⟨rfl, behind⟩ := List.cons.inj words
      exact ⟨_, _, rfl, behind, sound⟩
  obtain ⟨position, state, taking, words, sound⟩ := ran
  obtain ⟨target, finished, rest⟩ := after position state words sound
  exact ⟨target, bind_eq_ok_iff.mpr ⟨_, state, taking, finished⟩, rest⟩

theorem Takes.peekLexeme_bind {α : Type} {next : Option Lexeme → Parser α}
    {taken left : List Lexeme} {result : α}
    (after : (next (taken ++ left).head?).Takes taken left result) :
    (peekLexeme >>= next).Takes taken left result := by
  unfold peekLexeme
  rw [bind_assoc]
  refine .peek_bind fun found ahead => ?_
  rw [pure_bind, ahead]
  exact after

theorem Takes.sees_bind {α : Type} {kind : Kind} {next : Bool → Parser α}
    {taken left : List Lexeme} {result : α}
    (after : (next (kindAhead (taken ++ left) == kind)).Takes taken left result) :
    (sees (.ofKind kind) >>= next).Takes taken left result := by
  unfold sees
  rw [bind_assoc]
  refine .peek_bind fun found ahead => ?_
  have same : (Demand.ofKind kind).accepts found = (kindAhead (taken ++ left) == kind) := by
    rw [Bool.eq_iff_iff, Demand.accepts_ofKind, beq_iff_eq]
    generalize taken ++ left = words at ahead
    rcases found with _ | token <;> rcases words with _ | ⟨word, rest⟩ <;> cases ahead <;> rfl
  rw [pure_bind, same]
  exact after

/-- A demand that the next word meets takes this word. -/
theorem takes_expect {α : Type} {demand : Demand} {next : Option Token → Parser α} {word : Lexeme}
    {taken left : List Lexeme} {result : α}
    (accepts : ∀ position, demand.accepts (some ⟨word, position⟩) = true)
    (after : ∀ position, (next (some ⟨word, position⟩)).Takes taken left result) :
    (expect demand >>= next).Takes (word :: taken) left result := by
  unfold expect
  rw [bind_assoc]
  refine .peek_bind fun found ahead => ?_
  obtain ⟨position, rfl⟩ : ∃ position, found = some ⟨word, position⟩ := by
    rcases found with _ | ⟨lexeme, position⟩ <;> cases ahead
    exact ⟨position, rfl⟩
  rw [if_pos (accepts position)]
  exact .take_bind after

theorem takes_expectKind (word : Lexeme) (left : List Lexeme) :
    (expectKind word.kind).Takes [word] left () := by
  refine takes_expect (fun position => ?_) fun _ => takes_pure _ _
  rw [Demand.accepts_ofKind]; rfl

theorem takes_expectKeyword (word : Keyword) (left : List Lexeme) :
    (expectKeyword word).Takes [.keyword word] left () := by
  refine takes_expect (fun position => ?_) fun _ => takes_pure _ _
  rw [Demand.accepts_ofKeyword]; rfl

theorem takes_expectIdent (name : String) (left : List Lexeme) :
    expectIdent.Takes [.ident name] left name := by
  refine takes_expect (fun position => ?_) fun _ => takes_pure _ _
  rw [Demand.accepts_ofKind]; rfl

theorem takes_operator (op : Operator) (left : List Lexeme) :
    (operator? op.level).Takes [.operator op] left (some op) := by
  refine .peekLexeme_bind ?_
  simp only [List.cons_append, List.head?_cons, if_pos]
  exact .take_bind fun _ => takes_pure _ _

theorem takes_noOperator {level : Level} {left : List Lexeme}
    (other : ∀ op, left.head? = some (.operator op) → op.level ≠ level) :
    (operator? level).Takes [] left none := by
  refine .peekLexeme_bind ?_
  rw [List.nil_append]
  split
  · rename_i op word
    rw [if_neg (other op word)]
    exact takes_pure _ _
  · exact takes_pure _ _

/-- All identifiers up to another word are parameters. -/
theorem takes_params {names : List String} {left : List Lexeme} {limit : Nat}
    (enough : names.length < limit) (last : kindAhead left ≠ .ident) :
    (params limit).Takes (names.map .ident) left names := by
  induction names generalizing limit with
  | nil =>
    obtain ⟨limit, rfl⟩ : ∃ less, limit = less + 1 := ⟨limit - 1, by omega⟩
    refine .peekLexeme_bind ?_
    split
    · rename_i name word
      obtain ⟨rest, rfl⟩ := List.head?_eq_some_iff.mp word
      exact (last rfl).elim
    · exact takes_pure _ _
  | cons name names ih =>
    rw [List.length_cons] at enough
    obtain ⟨limit, rfl⟩ : ∃ less, limit = less + 1 := ⟨limit - 1, by omega⟩
    refine .peekLexeme_bind (.take_bind fun _ => ?_)
    exact (ih (Nat.lt_of_succ_lt_succ enough)).bind_pure _

end Parser

end MiniFun
