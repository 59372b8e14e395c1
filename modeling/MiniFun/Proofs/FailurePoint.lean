import MiniFun.Proofs.ParserSoundness
import MiniFun.Proofs.WordScan

/-! # Where parsers fail

A parser reads its tokens from the front and looks at one token ahead. If it succeeds, then the
tokens that it took and the next one have decided that: on another stream that begins with them it
gives the same result or none. If it fails, then it has taken tokens that some valid words complete
to a phrase, and has refused the next token: there is no success on any stream that goes on with
that token.

The other run may have other limits than the first, so that it is a run of a second parser. Both
kinds of result compose along `>>=`, and so do the words that complete a phrase: what a parser has
taken so far is a part of the goal of what follows.
-/

namespace MiniFun

/-! ## Failures and the tokens in front of them -/

/-- Whether host code has worded the fault. -/
def SyntaxFault.isReported : SyntaxFault → Bool
  | reported _ => true
  | _ => false

/-- What is reported by a parser that refuses the first of the given tokens, or the end of the
input. At its end the stream may raise an error of its own. -/
inductive Stream.Reports (source : Stream) : Error → List Token → Prop
  | token {fault : SyntaxFault} (own : fault.isReported = false) (refused : Token)
      (behind : List Token) :
      Reports source (.malformed fault (some refused.position)) (refused :: behind)
  | ending {fault : SyntaxFault} (own : fault.isReported = false) (sound : source.fault = none) :
      Reports source (.malformed fault (some source.endPosition)) []
  | raised {cause : Error} (known : source.fault = some cause) : Reports source cause []

/-- The target differs from the source at most in the tokens. -/
structure Stream.SameEnd (source target : Stream) : Prop where
  fault : target.fault = source.fault
  position : target.endPosition = source.endPosition

private theorem Stream.Reports.of_sameEnd {source middle : Stream} {cause : Error}
    {rest : List Token} (same : source.SameEnd middle) (reports : middle.Reports cause rest) :
    source.Reports cause rest := by
  cases reports with
  | token own refused behind => exact .token own refused behind
  | ending own sound =>
    rw [same.position]
    exact .ending own (same.fault.symm.trans sound)
  | raised known => exact .raised (same.fault.symm.trans known)

/-- The words that are used to complete phrases: reserved words, marks, and one identifier. -/
def Lexeme.isFiller : Lexeme → Bool
  | .number _ => false
  | .ident name => name == "x"
  | _ => true

private theorem Lexeme.valid_of_isFiller {word : Lexeme} (filler : word.isFiller = true) :
    word.Valid := by
  cases word with
  | number => cases filler
  | ident name =>
    obtain rfl : name = "x" := by simpa [isFiller] using filler
    exact ⟨⟨'x', [], rfl, rfl, nofun⟩, rfl⟩
  | _ => trivial

/-- Some valid words behind the given ones reach the goal. -/
def Completes (goal : List Lexeme → Prop) (words : List Lexeme) : Prop :=
  ∃ suffix, (∀ word ∈ suffix, word.Valid) ∧ goal (words ++ suffix)

theorem Lexeme.valid_of_fillers {words : List Lexeme} (fillers : words.all isFiller = true) :
    ∀ word ∈ words, word.Valid :=
  fun word member => valid_of_isFiller (List.all_eq_true.mp fillers word member)

theorem Completes.with_fillers {goal : List Lexeme → Prop} {words : List Lexeme}
    (suffix : List Lexeme) (fillers : suffix.all Lexeme.isFiller = true)
    (reached : goal (words ++ suffix)) : Completes goal words :=
  ⟨suffix, Lexeme.valid_of_fillers fillers, reached⟩

/-- What has reached the goal already needs no more words. -/
theorem Completes.of_front {goal : List Lexeme → Prop} {front : List Lexeme}
    (reached : goal front) : Completes (fun rest => goal (front ++ rest)) [] := by
  refine ⟨[], nofun, ?_⟩
  simpa using reached

/-- How the result of a parser on the source was decided by the tokens at its front. On other
streams the second parser is run in its place. -/
inductive Decided {α : Type} (retry : Parser α) (source : Stream) (goal : List Lexeme → Prop) :
    EStateM.Result Failure Stream α → Prop
  | ok {value : α} {target : Stream} (taken : List Token)
      (advanced : source.remaining = taken ++ target.remaining) (sameEnd : source.SameEnd target)
      (again : ∀ {other : Stream} {left : List Token}, other.remaining = taken ++ left →
        left.head? = target.remaining.head? → ∀ {value' : α} {target' : Stream},
          retry other = .ok value' target' → value' = value ∧ target'.remaining = left) :
      Decided retry source goal (.ok value target)
  | error {cause : Error} {target : Stream} (taken : List Token) {rest : List Token}
      (advanced : source.remaining = taken ++ rest) (reports : source.Reports cause rest)
      (completes : Completes goal (taken.map Token.lexeme))
      (refuses : ∀ {token : Token}, rest.head? = some token →
        ∀ {other : Stream} {left : List Token}, other.remaining = taken ++ token :: left →
          ∀ {value : α} {target' : Stream}, retry other ≠ .ok value target') :
      Decided retry source goal (.error (.error cause) target)
  | limit {failure : Failure} {target : Stream} (noError : ∀ cause, failure ≠ .error cause) :
      Decided retry source goal (.error failure target)

/-- The words taken on the way are those of the tokens. -/
theorem Stream.Advances.words_taken {source target : Stream} {words : List Lexeme}
    {taken : List Token} (advances : source.Advances target words)
    (advanced : source.remaining = taken ++ target.remaining) : taken.map Token.lexeme = words := by
  have words_eq := advances.words_eq
  rw [Stream.words, advanced, List.map_append] at words_eq
  exact List.append_cancel_right words_eq

/-- What was taken behind a stream was taken behind the same stream with a token read ahead. -/
theorem Stream.Advances.after {source middle target : Stream} {words : List Lexeme}
    (unmoved : source.Advances middle []) (whole : source.Advances target words) :
    middle.Advances target words :=
  ⟨by rw [← whole.words_eq, unmoved.words_eq, List.nil_append],
    whole.fault_eq.trans unmoved.fault_eq.symm⟩

private theorem head?_append {first second : List Token} (same : first.head? = second.head?)
    (front : List Token) : (front ++ first).head? = (front ++ second).head? := by
  cases front with
  | nil => exact same
  | cons => rfl

namespace Decided

variable {α β : Type} {source : Stream} {goal : List Lexeme → Prop}

theorem bind {first retry : Parser α} {second retrySecond : α → Parser β}
    (front : Decided retry source goal (first source))
    (back : ∀ {value middle}, first source = .ok value middle → ∃ words,
      source.Advances middle words ∧ Decided (retrySecond value) middle
        (fun rest => goal (words ++ rest)) (second value middle)) :
    Decided (retry >>= retrySecond) source goal ((first >>= second) source) := by
  generalize ran : first source = result at front
  cases front with
  | limit noError =>
    rw [bind_of_error ran]
    exact .limit noError
  | error taken advanced reports completes refuses =>
    rw [bind_of_error ran]
    refine .error taken advanced reports completes fun ahead _ _ begins _ _ success => ?_
    obtain ⟨_, _, success, -⟩ := bind_eq_ok_iff.mp success
    exact refuses ahead begins success
  | @ok value middle taken advanced sameEnd again =>
    rw [bind_of_ok ran]
    obtain ⟨words, advances, further⟩ := back ran
    obtain rfl := advances.words_taken advanced
    generalize second value middle = result at further
    cases further with
    | limit noError => exact .limit noError
    | @error _ _ more rest advancedMore reports completes refuses =>
      obtain ⟨suffix, valid, reached⟩ := completes
      refine .error (taken ++ more) ?_ (reports.of_sameEnd sameEnd) ⟨suffix, valid, ?_⟩ ?_
      · rw [advanced, advancedMore, List.append_assoc]
      · rw [List.map_append, List.append_assoc]
        exact reached
      · intro token ahead other left begins value' target' success
        obtain ⟨value', middle', ranAgain, success⟩ := bind_eq_ok_iff.mp success
        have sameAhead : (token :: left).head? = rest.head? := ahead.symm
        rw [List.append_assoc] at begins
        obtain ⟨rfl, remaining⟩ := again begins
          (by rw [advancedMore]; exact head?_append sameAhead more) ranAgain
        exact refuses ahead remaining success
    | @ok _ target more advancedMore sameEndMore againMore =>
      refine .ok (taken ++ more) ?_
        ⟨sameEndMore.fault.trans sameEnd.fault, sameEndMore.position.trans sameEnd.position⟩ ?_
      · rw [advanced, advancedMore, List.append_assoc]
      · intro other left begins ahead value' target' success
        obtain ⟨value', middle', ranAgain, success⟩ := bind_eq_ok_iff.mp success
        rw [List.append_assoc] at begins
        obtain ⟨rfl, remaining⟩ := again begins
          (by rw [advancedMore]; exact head?_append ahead more) ranAgain
        exact againMore remaining ahead success

/-- Where a phrase inside of another one can be completed, so can the outer one. -/
theorem within {retry : Parser α} {result : EStateM.Result Failure Stream α}
    {inner : List Lexeme → Prop} (decided : Decided retry source inner result)
    (closing : List Lexeme) (fillers : closing.all Lexeme.isFiller = true)
    (fits : ∀ words, inner words → goal (words ++ closing)) : Decided retry source goal result := by
  cases decided with
  | ok taken advanced sameEnd again => exact .ok taken advanced sameEnd again
  | limit noError => exact .limit noError
  | error taken advanced reports completes refuses =>
    obtain ⟨suffix, valid, reached⟩ := completes
    refine .error taken advanced reports ⟨suffix ++ closing, ?_, ?_⟩ refuses
    · intro word member
      exact (List.mem_append.mp member).elim (valid word) (Lexeme.valid_of_fillers fillers word)
    · rw [← List.append_assoc]
      exact fits _ reached

theorem mono {retry : Parser α} {result : EStateM.Result Failure Stream α}
    {inner : List Lexeme → Prop} (decided : Decided retry source inner result)
    (fits : ∀ words, inner words → goal words) : Decided retry source goal result := by
  refine decided.within [] rfl fun words reached => ?_
  rw [List.append_nil]
  exact fits words reached

/-- The second parser may as well be one that never succeeds. -/
theorem of_never {retry never : Parser α} {result : EStateM.Result Failure Stream α}
    (decided : Decided retry source goal result)
    (fails : ∀ other value target, never other ≠ .ok value target) :
    Decided never source goal result := by
  cases decided with
  | ok taken advanced sameEnd =>
    exact .ok taken advanced sameEnd fun _ _ _ _ success => (fails _ _ _ success).elim
  | limit noError => exact .limit noError
  | error taken advanced reports completes =>
    exact .error taken advanced reports completes fun _ _ _ _ _ _ success => fails _ _ _ success

/-- A loop that has no turns left on the other stream does not succeed there. -/
theorem of_turns (retry : Nat → Parser α) {result : EStateM.Result Failure Stream α}
    (start : retry 0 = throw .tooDeep)
    (turns : ∀ count, Decided (retry (count + 1)) source goal result) (count : Nat) :
    Decided (retry count) source goal result := by
  cases count with
  | succ count => exact turns count
  | zero =>
    refine (turns 0).of_never fun other value target success => ?_
    rw [start] at success
    cases success

theorem pure (value : α) :
    Decided (Pure.pure value) source goal ((Pure.pure value : Parser α) source) := by
  refine .ok [] rfl ⟨rfl, rfl⟩ fun begins _ _ _ success => ?_
  obtain ⟨rfl, rfl⟩ := pure_eq_ok_iff.mp success
  exact ⟨rfl, begins⟩

end Decided

/-! ## Looking ahead, taking and refusing -/

namespace Parser

theorem peek_remaining {source target : Stream} {found : Option Token}
    (success : peek source = .ok found target) :
    found = source.remaining.head? ∧ target.remaining = source.remaining ∧
      source.SameEnd target := by
  rcases source with ⟨_ | token, _ | ⟨next, rest⟩, _ | cause, endPosition⟩ <;> cases success <;>
    exact ⟨rfl, rfl, rfl, rfl⟩

theorem take_remaining {source target : Stream} {found : Option Token}
    (success : take source = .ok found target) :
    found = source.remaining.head? ∧ source.remaining = found.toList ++ target.remaining ∧
      source.SameEnd target := by
  rcases source with ⟨_ | token, _ | ⟨next, rest⟩, _ | cause, endPosition⟩ <;> cases success <;>
    exact ⟨rfl, rfl, rfl, rfl⟩

/-- Looking ahead fails only where the stream raises its error. -/
theorem peek_error {source target : Stream} {failure : Failure}
    (failed : peek source = .error failure target) :
    source.remaining = [] ∧ ∃ cause, failure = .error cause ∧ source.fault = some cause := by
  rcases source with ⟨_ | token, _ | ⟨next, rest⟩, _ | cause, endPosition⟩ <;> cases failed
  exact ⟨rfl, cause, rfl, rfl⟩

theorem take_error {source target : Stream} {failure : Failure}
    (failed : take source = .error failure target) :
    source.remaining = [] ∧ ∃ cause, failure = .error cause ∧ source.fault = some cause := by
  rcases source with ⟨_ | token, _ | ⟨next, rest⟩, _ | cause, endPosition⟩ <;> cases failed
  exact ⟨rfl, cause, rfl, rfl⟩

private theorem take_none {source target : Stream} (success : take source = .ok none target) :
    source.fault = none := by
  rcases source with ⟨_ | token, _ | ⟨next, rest⟩, _ | cause, endPosition⟩ <;> cases success
  rfl

end Parser

namespace Decided

open MiniFun.Parser

variable {α : Type} {source : Stream} {goal : List Lexeme → Prop}

theorem raised {retry : Parser α} {cause : Error} {target : Stream}
    (nothing : source.remaining = []) (known : source.fault = some cause)
    (completes : Completes goal []) :
    Decided retry source goal (.error (.error cause) target) :=
  .error [] nothing (.raised known) completes nofun

theorem peek (completes : Completes goal []) :
    Decided Parser.peek source goal (Parser.peek source) := by
  cases ran : Parser.peek source with
  | error failure target =>
    obtain ⟨nothing, cause, rfl, known⟩ := peek_error ran
    exact .raised nothing known completes
  | ok found target =>
    obtain ⟨rfl, remaining, sameEnd⟩ := peek_remaining ran
    refine .ok [] remaining.symm sameEnd ?_
    intro other left begins ahead found' target' success
    obtain ⟨rfl, remaining', -⟩ := peek_remaining success
    rw [remaining', begins, ← remaining]
    exact ⟨ahead, rfl⟩

theorem take (completes : Completes goal []) :
    Decided Parser.take source goal (Parser.take source) := by
  cases ran : Parser.take source with
  | error failure target =>
    obtain ⟨nothing, cause, rfl, known⟩ := take_error ran
    exact .raised nothing known completes
  | ok found target =>
    obtain ⟨ahead, advanced, sameEnd⟩ := take_remaining ran
    refine .ok found.toList advanced sameEnd ?_
    intro other left begins nextAhead found' target' success
    obtain ⟨ahead', advanced', -⟩ := take_remaining success
    have same : found' = found := by
      rw [ahead', ahead, begins, advanced]
      exact head?_append nextAhead found.toList
    subst same
    exact ⟨rfl, List.append_cancel_left (advanced'.symm.trans begins)⟩

/-- What was found ahead is refused. -/
theorem reject {fault : SyntaxFault} (own : fault.isReported = false) {found : Option Token}
    (ahead : found = source.remaining.head?)
    (sound : found = none → source.fault = none) (completes : Completes goal []) :
    Decided (Parser.reject fault found : Parser α) source goal
      (Parser.reject fault found source) := by
  cases remaining : source.remaining with
  | nil =>
    rw [remaining] at ahead
    subst ahead
    exact .error [] remaining (.ending own (sound rfl)) completes nofun
  | cons token behind =>
    rw [remaining] at ahead
    subst ahead
    refine .error [] remaining (.token own token behind) completes ?_
    intro _ _ _ _ _ _ _ success
    cases success

/-! ## Steps of parsers -/

section

variable {β : Type}

theorem peek_bind {next retryNext : Option Token → Parser β} (completes : Completes goal [])
    (after : ∀ {found middle}, Parser.peek source = .ok found middle →
      Decided (retryNext found) middle goal (next found middle)) :
    Decided (Parser.peek >>= retryNext) source goal ((Parser.peek >>= next) source) :=
  .bind (.peek completes) fun ran => ⟨[], (peek_ok ran).2, after ran⟩

theorem peekLexeme_bind {next retryNext : Option Lexeme → Parser β} (completes : Completes goal [])
    (after : ∀ {found middle}, peekLexeme source = .ok found middle →
      Decided (retryNext found) middle goal (next found middle)) :
    Decided (peekLexeme >>= retryNext) source goal ((peekLexeme >>= next) source) :=
  .bind (.peek_bind completes fun _ => .pure _) fun ran => ⟨[], (peekLexeme_ok ran).2, after ran⟩

theorem sees_bind {kind : Kind} {next retryNext : Bool → Parser β} (completes : Completes goal [])
    (after : ∀ {answer middle}, sees (.ofKind kind) source = .ok answer middle →
      Decided (retryNext answer) middle goal (next answer middle)) :
    Decided (sees (.ofKind kind) >>= retryNext) source goal
      ((sees (.ofKind kind) >>= next) source) :=
  .bind (.peek_bind completes fun _ => .pure _) fun ran => ⟨[], (sees_ok ran).2, after ran⟩

/-- What was found ahead, and left there, is refused. -/
theorem reject_peeked {fault : SyntaxFault} (own : fault.isReported = false)
    {found : Option Token} {middle : Stream}
    (peeked : Parser.peek source = .ok found middle) (completes : Completes goal []) :
    Decided (Parser.reject fault found : Parser α) middle goal
      (Parser.reject fault found middle) := by
  obtain ⟨ahead, remaining, sameEnd⟩ := peek_remaining peeked
  refine .reject own (remaining ▸ ahead) ?_ completes
  rintro rfl
  exact sameEnd.fault.trans (peek_none peeked).2

theorem expect (demand : Demand) (completes : Completes goal []) :
    Decided (Parser.expect demand) source goal (Parser.expect demand source) := by
  refine .peek_bind completes fun peeked => ?_
  split
  · exact .take completes
  · exact .reject_peeked rfl peeked completes

theorem expectKind_bind (lexeme : Lexeme) (alone : lexeme.isPunctuation = true)
    {next retryNext : Unit → Parser β} (completes : Completes goal [])
    (after : ∀ {middle}, Decided (retryNext ()) middle (fun rest => goal (lexeme :: rest))
      (next () middle)) :
    Decided (expectKind lexeme.kind >>= retryNext) source goal
      ((expectKind lexeme.kind >>= next) source) := by
  refine .bind (.bind (.expect _ completes) fun ran => ⟨_, (expect_ok ran).2, .pure ()⟩) ?_
  intro _ middle ran
  exact ⟨[lexeme], expectKind_ok lexeme alone ran, after⟩

theorem expectKeyword_bind (word : Keyword) {next retryNext : Unit → Parser β}
    (completes : Completes goal [])
    (after : ∀ {middle}, Decided (retryNext ()) middle (fun rest => goal (.keyword word :: rest))
      (next () middle)) :
    Decided (expectKeyword word >>= retryNext) source goal
      ((expectKeyword word >>= next) source) := by
  refine .bind (.bind (.expect _ completes) fun ran => ⟨_, (expect_ok ran).2, .pure ()⟩) ?_
  intro _ middle ran
  exact ⟨[.keyword word], expectKeyword_ok ran, after⟩

theorem expectIdent_bind {next retryNext : String → Parser β} (completes : Completes goal [])
    (after : ∀ {name middle}, Decided (retryNext name) middle
      (fun rest => goal (.ident name :: rest)) (next name middle)) :
    Decided (expectIdent >>= retryNext) source goal ((expectIdent >>= next) source) := by
  refine .bind (.bind (.expect _ completes) fun ran => ⟨_, (expect_ok ran).2, .pure _⟩) ?_
  intro name middle ran
  exact ⟨[.ident name], expectIdent_ok ran, after⟩

end

/-- The token that is taken is refused, or the parser goes on behind it. -/
theorem take_bind {next retryNext : Option Token → Parser α} (completes : Completes goal [])
    (after : ∀ {found middle}, Parser.take source = .ok found middle →
      Decided (retryNext found) middle
          (fun rest => goal ((found.map Token.lexeme).toList ++ rest)) (next found middle) ∨
        ∃ fault, next found = Parser.reject fault found ∧
          retryNext found = Parser.reject fault found ∧ fault.isReported = false) :
    Decided (Parser.take >>= retryNext) source goal ((Parser.take >>= next) source) := by
  cases ran : Parser.take source with
  | error failure target =>
    obtain ⟨nothing, cause, rfl, known⟩ := take_error ran
    rw [bind_of_error ran]
    exact .raised nothing known completes
  | ok found middle =>
    obtain decided | ⟨fault, rejects, retryRejects, own⟩ := after ran
    · refine .bind (.take completes) fun again => ?_
      obtain ⟨rfl, rfl⟩ := EStateM.Result.ok.inj (ran.symm.trans again)
      exact ⟨_, take_ok ran, decided⟩
    · obtain ⟨ahead, advanced, sameEnd⟩ := take_remaining ran
      rw [bind_of_ok ran, rejects]
      cases found with
      | none =>
        have nothing : source.remaining = [] := List.head?_eq_none_iff.mp ahead.symm
        have reports := Stream.Reports.ending own (take_none ran)
        rw [← sameEnd.position] at reports
        exact .error [] nothing reports completes nofun
      | some token =>
        refine .error [] advanced (.token own token _) completes ?_
        rintro _ ⟨⟩ other left begins value target' success
        obtain ⟨found', middle', ranAgain, success⟩ := bind_eq_ok_iff.mp success
        obtain ⟨ahead', -⟩ := take_remaining ranAgain
        rw [begins] at ahead'
        subst ahead'
        cases retryRejects.symm ▸ success

/-- An operator of the level is taken if there is one. -/
theorem operator? (level : Level) (completes : Completes goal []) :
    Decided (Parser.operator? level) source goal (Parser.operator? level source) := by
  refine .peekLexeme_bind completes fun _ => ?_
  split
  · split
    · exact .bind (.take completes) fun taken => ⟨_, take_ok taken, .pure _⟩
    · exact .pure none
  · exact .pure none

/-- The parameters can be completed however many of them there are. -/
theorem params {limit retryLimit : Nat}
    (completes : ∀ names : List String, Completes goal (names.map .ident)) :
    Decided (Parser.params retryLimit) source goal (Parser.params limit source) := by
  induction limit generalizing retryLimit source goal with
  | zero => exact .limit nofun
  | succ limit ih =>
    refine .of_turns Parser.params rfl (fun retryLimit => ?_) retryLimit
    refine .peekLexeme_bind (completes []) fun peeked => ?_
    split
    · rename_i name
      refine .bind (.take (completes [])) fun taken => ⟨[.ident name], ?_, ?_⟩
      · exact (peekLexeme_ok peeked).2.after (take_after_peekLexeme peeked taken)
      · refine .bind (ih fun names => completes (name :: names)) fun more => ?_
        exact ⟨_, params_ok more, .pure _⟩
    · exact .pure []

theorem numeral (digits : String) :
    Decided (Parser.numeral digits) source goal (Parser.numeral digits source) := by
  unfold Parser.numeral
  cases Text.readNumeral? digits.toList with
  | some value => exact .pure _
  | none => exact .limit nofun

end Decided

end MiniFun
