import MiniFun.Proofs.Dialogues
import MiniFun.Proofs.ViablePrefix

/-! # Delivery of tokens

However a stream is used, it delivers the tokens of its scan once each and in order. All uses come
down to requests for the next token, so that a session with a stream leaves a log of requests and
replies. The log so far decides the next reply: it says how many tokens were taken, and whether the
error behind the last one was raised.
-/

namespace MiniFun

/-! ## Results -/

/-- Whether the failure is the error of a scan. -/
def Failure.isLexical : Failure → Bool
  | .error (.malformed (.strayCharacter _) _) => true
  | _ => false

private theorem Refusal.not_lexical (refusal : Refusal) (position : Option Int) :
    (Failure.error (.malformed refusal.val position)).isLexical = false := by
  rcases refusal with ⟨fault, own⟩
  cases fault with
  | strayCharacter => cases own
  | _ => rfl

/-- The result of a parser, and the stream that it leaves. A failure is caught. -/
def Parser.outcome {α : Type} (parser : Parser α) (source : Stream) : Except Failure α × Stream :=
  match parser source with
  | .ok value target => (.ok value, target)
  | .error failure target => (.error failure, target)

private theorem Parser.outcome_of_ok {α : Type} {parser : Parser α} {source target : Stream}
    {value : α} (success : parser source = .ok value target) :
    parser.outcome source = (.ok value, target) := by
  rw [outcome, success]

private theorem Parser.outcome_of_error {α : Type} {parser : Parser α} {source target : Stream}
    {failure : Failure} (failed : parser source = .error failure target) :
    parser.outcome source = (.error failure, target) := by
  rw [outcome, failed]

private theorem Parser.outcome_map {α β : Type} (wrap : α → β) (parser : Parser α)
    (source : Stream) :
    Parser.outcome (wrap <$> parser) source =
      ((parser.outcome source).1.map wrap, (parser.outcome source).2) := by
  cases ran : parser source with
  | ok value target => rw [outcome_of_ok (map_of_ok ran), outcome_of_ok ran]; rfl
  | error failure target => rw [outcome_of_error (map_of_error ran), outcome_of_error ran]; rfl

namespace Stream

/-! ## Requests and replies -/

/-- A request to a stream, and its reply. -/
structure Exchange where
  request : Request
  reply : Except Error (Option Token)

namespace Exchange

/-- The token, or the end of the input, that was handed over for good. -/
def delivered? : Exchange → Option (Option Token)
  | ⟨.take, .ok found⟩ => some found
  | _ => none

def raises : Exchange → Bool
  | ⟨_, .ok _⟩ => false
  | ⟨_, .error _⟩ => true

/-- The source gives the reply and becomes the target. -/
inductive Leads : Exchange → Stream → Stream → Prop
  | answered {request : Request} {found : Option Token} {source target : Stream}
      (served : request.serve source = .ok found target) :
      Leads ⟨request, .ok found⟩ source target
  | raised {request : Request} {cause : Error} {source target : Stream}
      (served : request.serve source = .error (.error cause) target) :
      Leads ⟨request, .error cause⟩ source target

end Exchange

def delivered (log : List Exchange) : List (Option Token) :=
  log.filterMap Exchange.delivered?

@[simp]
theorem delivered_append (front back : List Exchange) :
    delivered (front ++ back) = delivered front ++ delivered back :=
  List.filterMap_append

/-- What a request does: the reply is the next token, or else the error that the stream has left;
an error that was raised is left no more; and either nothing is delivered, or the next token and no
other. -/
private theorem Exchange.Leads.effect {exchange : Exchange} {source target : Stream}
    (leads : exchange.Leads source target) :
    exchange.reply =
        (match source.remaining.head?, source.fault with
        | some token, _ => .ok (some token)
        | none, some cause => .error cause
        | none, none => .ok none) ∧
      target.fault = (if exchange.raises then none else source.fault) ∧
      ((delivered [exchange] = [] ∧ target.remaining = source.remaining) ∨
        delivered [exchange] = [source.remaining.head?] ∧
          target.remaining = source.remaining.tail) := by
  cases leads with
  | @answered request found _ _ served =>
    cases request with
    | look =>
      rcases source with ⟨_ | token, _ | ⟨next, rest⟩, _ | cause, endPosition⟩ <;> cases served <;>
        exact ⟨rfl, rfl, .inl ⟨rfl, rfl⟩⟩
    | take =>
      rcases source with ⟨_ | token, _ | ⟨next, rest⟩, _ | cause, endPosition⟩ <;> cases served <;>
        exact ⟨rfl, rfl, .inr ⟨rfl, rfl⟩⟩
  | @raised request cause _ _ served =>
    cases request <;>
      rcases source with ⟨_ | token, _ | ⟨next, rest⟩, _ | cause, endPosition⟩ <;> cases served <;>
      exact ⟨rfl, rfl, .inl ⟨rfl, rfl⟩⟩

/-- The source answers the requests one after the other and becomes the target. -/
inductive Talks : Stream → List Exchange → Stream → Prop
  | silent (stream : Stream) : Talks stream [] stream
  | next {source middle target : Stream} {exchange : Exchange} {log : List Exchange}
      (leads : exchange.Leads source middle) (further : middle.Talks log target) :
      Talks source (exchange :: log) target

theorem Talks.single {source target : Stream} {exchange : Exchange}
    (leads : exchange.Leads source target) : source.Talks [exchange] target :=
  .next leads (.silent target)

theorem talks_append {source target : Stream} {front back : List Exchange} :
    source.Talks (front ++ back) target ↔
      ∃ middle, source.Talks front middle ∧ middle.Talks back target := by
  induction front generalizing source with
  | nil =>
    constructor
    · exact fun talks => ⟨source, .silent source, talks⟩
    · rintro ⟨middle, talks, further⟩
      cases talks
      exact further
  | cons exchange front ih =>
    constructor
    · intro talks
      cases talks with
      | next leads further =>
        obtain ⟨middle, before, after⟩ := ih.mp further
        exact ⟨middle, .next leads before, after⟩
    · rintro ⟨middle, talks, after⟩
      cases talks with
      | next leads before => exact .next leads (ih.mpr ⟨middle, before, after⟩)

/-! ## The next reply -/

/-- The error of the scan, as long as it was not raised. -/
def pending (scan : Scan) (log : List Exchange) : Option Error :=
  if log.any Exchange.raises then none else scan.fault

/-- The reply that follows a log: the first token that was not delivered, and behind the last one
the error that is pending, or else the end of the input. -/
def answer (scan : Scan) (log : List Exchange) : Except Error (Option Token) :=
  match scan.tokens[(delivered log).length]?, pending scan log with
  | some token, _ => .ok (some token)
  | none, some cause => .error cause
  | none, none => .ok none

/-- The log and the stream at a moment of a session with the stream of a scan. -/
structure Moment (scan : Scan) (log : List Exchange) (stream : Stream) : Prop where
  /-- The stream still has all tokens that were not delivered. -/
  remaining : stream.remaining = scan.tokens.drop (delivered log).length
  /-- It still has the error of the scan, unless that was raised. -/
  fault : stream.fault = pending scan log
  /-- Tokens were delivered from the first one on, and behind the last one the end of the input. -/
  inOrder : delivered log = (scan.tokens.take (delivered log).length).map some ++
    List.replicate ((delivered log).length - scan.tokens.length) none
  /-- Every reply was the one that follows the log in front of it. -/
  replies : ∀ front exchange back, log = front ++ exchange :: back →
    exchange.reply = answer scan front

/-- One more delivery is the next token or, behind the last one, the end of the input. -/
private theorem deliveries_succ (tokens : List Token) (count : Nat) :
    (tokens.take (count + 1)).map some ++ List.replicate (count + 1 - tokens.length) none =
      (tokens.take count).map some ++ List.replicate (count - tokens.length) none ++
        [tokens[count]?] := by
  rw [List.take_add_one, List.map_append]
  cases known : tokens[count]? with
  | none =>
    have behind : tokens.length ≤ count := List.getElem?_eq_none_iff.mp known
    rw [Nat.succ_sub behind, List.replicate_succ', List.append_assoc]
    simp
  | some token =>
    have inside : count < tokens.length := (List.getElem?_eq_some_iff.mp known).1
    rw [Nat.sub_eq_zero_of_le (Nat.le_of_lt inside), Nat.sub_eq_zero_of_le inside]
    simp

namespace Moment

variable {scan : Scan} {log : List Exchange} {stream : Stream}

theorem start (scan : Scan) (endPosition : Int) : Moment scan [] (.ofScan scan endPosition) := by
  refine ⟨rfl, rfl, ?_, ?_⟩
  · simp [delivered]
  · intro front exchange back impossible
    simp at impossible

private theorem head?_remaining (moment : Moment scan log stream) :
    stream.remaining.head? = scan.tokens[(delivered log).length]? := by
  rw [moment.remaining, List.head?_drop]

/-- The stream and the log agree on the reply. -/
theorem reply (moment : Moment scan log stream) {exchange : Exchange} {target : Stream}
    (leads : exchange.Leads stream target) : exchange.reply = answer scan log := by
  rw [leads.effect.1, moment.head?_remaining, moment.fault]
  rfl

theorem step (moment : Moment scan log stream) {exchange : Exchange} {target : Stream}
    (leads : exchange.Leads stream target) : Moment scan (log ++ [exchange]) target := by
  obtain ⟨-, faultAfter, moves⟩ := leads.effect
  have fault : target.fault = pending scan (log ++ [exchange]) := by
    rw [faultAfter, moment.fault]
    cases raised : exchange.raises <;> simp [pending, raised]
  have replies : ∀ front other back, log ++ [exchange] = front ++ other :: back →
      other.reply = answer scan front := by
    intro front other back same
    rcases List.eq_nil_or_concat back with rfl | ⟨between, last, rfl⟩
    · obtain ⟨rfl, rfl⟩ := List.append_singleton_inj.mp same
      exact moment.reply leads
    · rw [List.concat_eq_append, ← List.cons_append, ← List.append_assoc] at same
      exact moment.replies front other between (List.append_singleton_inj.mp same).1
  rcases moves with ⟨kept, unmoved⟩ | ⟨delivery, moved⟩
  · refine ⟨?_, fault, ?_, replies⟩ <;> rw [delivered_append, kept, List.append_nil]
    · rw [unmoved, moment.remaining]
    · exact moment.inOrder
  · rw [moment.head?_remaining] at delivery
    refine ⟨?_, fault, ?_, replies⟩ <;> rw [delivered_append, delivery, List.length_append]
    · rw [moved, moment.remaining, List.tail_drop]
      rfl
    · rw [List.length_singleton, deliveries_succ, ← moment.inOrder]

theorem run (moment : Moment scan log stream) {further : List Exchange} {target : Stream}
    (talks : stream.Talks further target) : Moment scan (log ++ further) target := by
  induction talks generalizing log with
  | silent stream =>
    rw [List.append_nil]
    exact moment
  | next leads further ih =>
    rw [List.append_cons]
    exact ih (moment.step leads)

/-- At most the next token was read ahead. -/
theorem upcoming (moment : Moment scan log stream) :
    scan.tokens.drop ((delivered log).length + 1) <:+ stream.upcoming := by
  have ahead : stream.remaining.tail <:+ stream.upcoming := by
    rw [remaining.eq_def]
    cases stream.lookahead with
    | none => exact List.tail_suffix _
    | some token => exact List.suffix_rfl
  rwa [moment.remaining, List.tail_drop] at ahead

end Moment

/-! ## Whole logs -/

private theorem delivered_of_looks {log : List Exchange}
    (looks : ∀ exchange ∈ log, exchange.request = .look) : delivered log = [] := by
  refine List.filterMap_eq_nil_iff.mpr fun exchange member => ?_
  rcases exchange with ⟨request, reply⟩
  obtain rfl : request = .look := looks _ member
  rfl

theorem pending_eq_some_iff {scan : Scan} {log : List Exchange} {cause : Error} :
    pending scan log = some cause ↔ log.any Exchange.raises = false ∧ scan.fault = some cause := by
  rw [pending]
  cases log.any Exchange.raises <;> simp

/-- An error that is not pending does not come back. -/
private theorem pending_append_eq_none {scan : Scan} {log : List Exchange}
    (nothing : pending scan log = none) (more : List Exchange) :
    pending scan (log ++ more) = none := by
  rw [pending] at nothing ⊢
  split at nothing
  · rename_i raised
    rw [List.any_append, raised, Bool.true_or, if_pos rfl]
  · rw [nothing, ite_self]

theorem answer_eq_error_iff {scan : Scan} {log : List Exchange} {cause : Error} :
    answer scan log = .error cause ↔
      scan.tokens[(delivered log).length]? = none ∧ pending scan log = some cause := by
  rw [answer]
  cases scan.tokens[(delivered log).length]? <;> cases pending scan log <;> simp

/-- An error that is pending leaves no room for the end of the input. -/
private theorem answer_of_pending {scan : Scan} {log : List Exchange} {cause : Error}
    (left : pending scan log = some cause) :
    (∃ token, answer scan log = .ok (some token)) ∨ answer scan log = .error cause := by
  rw [answer, left]
  cases scan.tokens[(delivered log).length]? with
  | some token => exact .inl ⟨token, rfl⟩
  | none => exact .inr rfl

private theorem answer_of_raised {scan : Scan} {log : List Exchange}
    (raised : log.any Exchange.raises = true)
    (exhausted : scan.tokens.length ≤ (delivered log).length) : answer scan log = .ok none := by
  rw [answer, pending, raised, List.getElem?_eq_none exhausted]
  rfl

/-- Requests that take nothing leave a reply as it was, unless it was an error. -/
private theorem answer_append_of_ok {scan : Scan} {log more : List Exchange} {found : Option Token}
    (known : answer scan log = .ok found) (nothing : delivered more = []) :
    answer scan (log ++ more) = .ok found := by
  rw [answer] at known ⊢
  rw [delivered_append, nothing, List.append_nil]
  cases ahead : scan.tokens[(delivered log).length]? with
  | some token =>
    rw [ahead] at known
    exact known
  | none =>
    cases left : pending scan log with
    | some cause =>
      rw [ahead, left] at known
      cases known
    | none =>
      rw [ahead, left] at known
      rw [pending_append_eq_none left]
      exact known

section

variable {scan : Scan} {endPosition : Int} {log : List Exchange} {target : Stream}
  (talks : (ofScan scan endPosition).Talks log target)
include talks

/-- What holds at every moment of a session. -/
theorem Talks.moment {front back : List Exchange} (whole : log = front ++ back) :
    ∃ stream, (ofScan scan endPosition).Talks front stream ∧ stream.Talks back target ∧
      Moment scan front stream := by
  rw [whole] at talks
  obtain ⟨stream, before, after⟩ := talks_append.mp talks
  exact ⟨stream, before, after, (Moment.start scan endPosition).run before⟩

theorem Talks.reply_eq {front back : List Exchange} {exchange : Exchange}
    (whole : log = front ++ exchange :: back) : exchange.reply = answer scan front :=
  ((Moment.start scan endPosition).run talks).replies front exchange back whole

/-- What is found ahead is what the next request to take is given. -/
theorem Talks.look_before_take {front between back : List Exchange} {found : Option Token}
    {reply : Except Error (Option Token)}
    (whole : log = front ++ ⟨.look, .ok found⟩ :: (between ++ ⟨.take, reply⟩ :: back))
    (looks : ∀ exchange ∈ between, exchange.request = .look) : reply = .ok found := by
  have ahead : answer scan front = .ok found := (talks.reply_eq whole).symm
  rw [← List.cons_append, ← List.append_assoc] at whole
  refine (talks.reply_eq whole).trans (answer_append_of_ok ahead (delivered_of_looks ?_))
  intro exchange member
  rcases List.mem_cons.mp member with rfl | member
  · rfl
  · exact looks exchange member

/-- The error of the scan is raised by the first request behind the last token. The requests before
are all answered with tokens, those after it with the end of the input. -/
private theorem Talks.around_error {front back : List Exchange} {request : Request} {cause : Error}
    (whole : log = front ++ ⟨request, .error cause⟩ :: back) :
    scan.fault = some cause ∧ delivered front = scan.tokens.map some ∧
      (∀ exchange ∈ front, ∃ token, exchange.reply = .ok (some token)) ∧
      ∀ exchange ∈ back, exchange.reply = .ok none := by
  obtain ⟨exhausted, left⟩ := answer_eq_error_iff.mp (talks.reply_eq whole).symm
  obtain ⟨quiet, known⟩ := pending_eq_some_iff.mp left
  have tokensOnly : ∀ exchange ∈ front, ∃ token, exchange.reply = .ok (some token) := by
    intro exchange member
    obtain ⟨before, after, rfl⟩ := List.append_of_mem member
    rw [List.append_assoc, List.cons_append] at whole
    have reply := talks.reply_eq whole
    rw [List.any_append, List.any_cons, Bool.or_eq_false_iff, Bool.or_eq_false_iff] at quiet
    rcases answer_of_pending (pending_eq_some_iff.mpr ⟨quiet.1, known⟩) with found | raised
    · rw [reply]
      exact found
    · rcases exchange with ⟨request, _⟩
      cases reply.trans raised
      cases quiet.2.1
  refine ⟨known, ?_, tokensOnly, ?_⟩
  · obtain ⟨stream, -, -, moment⟩ := talks.moment whole
    have inside : (delivered front).length - scan.tokens.length = 0 := by
      by_contra outside
      have ended : none ∈ delivered front := by
        rw [moment.inOrder]
        exact List.mem_append_right _ (List.mem_replicate.mpr ⟨outside, rfl⟩)
      obtain ⟨⟨request, reply⟩, member, delivery⟩ := List.mem_filterMap.mp ended
      obtain ⟨token, rfl⟩ := tokensOnly _ member
      cases request <;> cases delivery
    rw [moment.inOrder, inside, List.take_of_length_le (List.getElem?_eq_none_iff.mp exhausted)]
    exact List.append_nil _
  · intro exchange member
    obtain ⟨before, after, rfl⟩ := List.append_of_mem member
    rw [← List.cons_append, ← List.append_assoc] at whole
    rw [talks.reply_eq whole]
    refine answer_of_raised ?_ ?_
    · simp [Exchange.raises]
    · rw [delivered_append, List.length_append]
      exact Nat.le_add_right_of_le (List.getElem?_eq_none_iff.mp exhausted)

end

/-! ## The requests of a phrase -/

/-- How a result follows from the exchanges that led to it: an error that was raised ends them and
is the result, and there is no other result of that kind. -/
inductive Course {α : Type} : List Exchange → Except Failure α → Prop
  | done (log : List Exchange) (quiet : log.any Exchange.raises = false) (value : α) :
      Course log (.ok value)
  | failed (log : List Exchange) (quiet : log.any Exchange.raises = false) {failure : Failure}
      (own : failure.isLexical = false) : Course log (.error failure)
  | raised (log : List Exchange) (quiet : log.any Exchange.raises = false) (request : Request)
      (cause : Error) : Course (log ++ [⟨request, .error cause⟩]) (.error (.error cause))

theorem Course.after {α : Type} {log : List Exchange} {result : Except Failure α}
    (course : Course log result) (request : Request) (found : Option Token) :
    Course (⟨request, .ok found⟩ :: log) result := by
  cases course with
  | done log quiet value => exact .done (⟨request, .ok found⟩ :: log) quiet value
  | failed log quiet own => exact .failed (⟨request, .ok found⟩ :: log) quiet own
  | raised log quiet last cause => exact .raised (⟨request, .ok found⟩ :: log) quiet last cause

/-- A dialogue is held by requests, and comes to its result on their replies. -/
theorem course_of_dialogue {α : Type} (dialogue : Dialogue α) (source : Stream) :
    ∃ log, source.Talks log (dialogue.run.outcome source).2 ∧
      Course log (dialogue.run.outcome source).1 := by
  induction dialogue generalizing source with
  | done value => exact ⟨[], .silent source, .done [] rfl value⟩
  | giveUp limit => exact ⟨[], .silent source, .failed [] rfl (by cases limit <;> rfl)⟩
  | ask request verdict next ih =>
    rw [Dialogue.run]
    cases served : request.serve source with
    | error failure target =>
      obtain ⟨cause, rfl⟩ := Request.serve_error served
      rw [Parser.outcome_of_error (bind_of_error served)]
      exact ⟨[⟨request, .error cause⟩], .single (.raised served), .raised [] rfl request cause⟩
    | ok found target =>
      have leads : Exchange.Leads ⟨request, .ok found⟩ source target := .answered served
      rw [Parser.outcome, bind_of_ok served]
      cases verdict (found.map Token.lexeme) with
      | none =>
        obtain ⟨log, talks, course⟩ := ih (found.map Token.lexeme) target
        exact ⟨⟨request, .ok found⟩ :: log, .next leads talks, course.after request found⟩
      | some refusal =>
        exact ⟨[⟨request, .ok found⟩], .single leads, .failed _ rfl (refusal.not_lexical _)⟩

/-! ## Calls -/

inductive Call where
  | peek
  | sees (demand : Demand)
  | take
  | expect (demand : Demand)
  | parse (phrase : Phrase)

inductive Answer where
  | found (token : Option Token)
  | truth (holds : Bool)
  | tree (expr : Expr)

def Answer.ofReply (wrap : Option Token → Answer) :
    Except Error (Option Token) → Except Failure Answer
  | .ok token => .ok (wrap token)
  | .error cause => .error (.error cause)

namespace Call

def parser : Call → Parser Answer
  | peek => Answer.found <$> Parser.peek
  | sees demand => Answer.truth <$> Parser.sees demand
  | take => Answer.found <$> Parser.take
  | expect demand => Answer.found <$> Parser.expect demand
  | parse phrase => Answer.tree <$> phrase.parse

/-- The requests of a call, and how its result follows from the replies. -/
inductive Makes : Call → List Exchange → Except Failure Answer → Prop
  | peek (reply : Except Error (Option Token)) :
      Makes peek [⟨.look, reply⟩] (Answer.ofReply .found reply)
  | sees (demand : Demand) (reply : Except Error (Option Token)) :
      Makes (sees demand) [⟨.look, reply⟩]
        (Answer.ofReply (fun found => .truth (demand.accepts found)) reply)
  | take (reply : Except Error (Option Token)) :
      Makes take [⟨.take, reply⟩] (Answer.ofReply .found reply)
  | met {demand : Demand} {found : Option Token} (accepted : demand.accepts found = true) :
      Makes (expect demand) [⟨.look, .ok found⟩, ⟨.take, .ok found⟩] (.ok (.found found))
  | unmet {demand : Demand} {found : Option Token} (refused : demand.accepts found = false)
      (place : Int) :
      Makes (expect demand) [⟨.look, .ok found⟩] (.error (.error
        (.malformed (.expected demand.wanted (found.map Token.text)) (some place))))
  | unanswered (demand : Demand) (cause : Error) :
      Makes (expect demand) [⟨.look, .error cause⟩] (.error (.error cause))
  | parse {phrase : Phrase} {log : List Exchange} {result : Except Failure Expr}
      (course : Course log result) : Makes (parse phrase) log (result.map .tree)

def perform (call : Call) (source : Stream) : Except Failure Answer × Stream :=
  call.parser.outcome source

private theorem request_makes (request : Request) (wrap : Option Token → Answer) (source : Stream) :
    ∃ reply, source.Talks [⟨request, reply⟩] (Parser.outcome (wrap <$> request.serve) source).2 ∧
      (Parser.outcome (wrap <$> request.serve) source).1 = Answer.ofReply wrap reply := by
  cases served : request.serve source with
  | ok found target =>
    rw [Parser.outcome_of_ok (map_of_ok served)]
    exact ⟨.ok found, .single (.answered served), rfl⟩
  | error failure target =>
    obtain ⟨cause, rfl⟩ := Request.serve_error served
    rw [Parser.outcome_of_error (map_of_error served)]
    exact ⟨.error cause, .single (.raised served), rfl⟩

private theorem expect_makes (demand : Demand) (source : Stream) :
    ∃ log, source.Talks log ((expect demand).perform source).2 ∧
      (expect demand).Makes log ((expect demand).perform source).1 := by
  rw [perform, parser, Parser.outcome_map, Parser.expect]
  cases looked : Parser.peek source with
  | error failure middle =>
    obtain ⟨-, cause, rfl, -⟩ := Parser.peek_error looked
    rw [Parser.outcome_of_error (bind_of_error looked)]
    exact ⟨[⟨.look, .error cause⟩], .single (.raised looked), .unanswered demand cause⟩
  | ok found middle =>
    rw [Parser.outcome, bind_of_ok looked]
    cases accepted : demand.accepts found with
    | false =>
      exact ⟨[⟨.look, .ok found⟩], .single (.answered looked), .unmet accepted _⟩
    | true =>
      obtain ⟨target, taken⟩ := Parser.take_of_peek looked
      rw [if_pos rfl, taken]
      exact ⟨[⟨.look, .ok found⟩, ⟨.take, .ok found⟩],
        .next (.answered looked) (.single (.answered taken)), .met accepted⟩

/-- Every call comes down to requests. -/
theorem makes (call : Call) (source : Stream) :
    ∃ log, source.Talks log (call.perform source).2 ∧ call.Makes log (call.perform source).1 := by
  cases call with
  | peek =>
    obtain ⟨reply, talks, result⟩ := request_makes .look .found source
    exact ⟨[⟨.look, reply⟩], talks, result ▸ .peek reply⟩
  | sees demand =>
    obtain ⟨reply, talks, result⟩ :=
      request_makes .look (fun found => .truth (demand.accepts found)) source
    have same : (sees demand).parser =
        (fun found => Answer.truth (demand.accepts found)) <$> Request.look.serve := by
      rw [parser, Parser.sees, ← map_eq_pure_bind, ← comp_map]
      rfl
    rw [← same] at talks result
    exact ⟨[⟨.look, reply⟩], talks, result ▸ .sees demand reply⟩
  | take =>
    obtain ⟨reply, talks, result⟩ := request_makes .take .found source
    exact ⟨[⟨.take, reply⟩], talks, result ▸ .take reply⟩
  | expect demand => exact expect_makes demand source
  | parse phrase =>
    obtain ⟨dialogue, conducts⟩ := phrase.conducted (source.remaining.length + 1)
    obtain ⟨log, talks, course⟩ := course_of_dialogue dialogue source
    have same : phrase.parse.outcome source = dialogue.run.outcome source := by
      rw [Parser.outcome, Parser.outcome, phrase.parse_apply, conducts]
    rw [← same] at talks course
    rw [perform, parser, Parser.outcome_map]
    exact ⟨log, talks, .parse course⟩

end Call

/-! ## Sessions -/

/-- A call, the exchanges that it led to, and its result. -/
structure Event where
  call : Call
  log : List Exchange
  result : Except Failure Answer

/-- The calls are made one after the other, each on the stream that the last one has left. -/
inductive Session : Stream → List Event → Stream → Prop
  | start (stream : Stream) : Session stream [] stream
  | next {source middle target : Stream} {event : Event} {events : List Event}
      (performed : event.call.perform source = (event.result, middle))
      (talks : source.Talks event.log middle) (made : event.call.Makes event.log event.result)
      (further : middle.Session events target) : Session source (event :: events) target

theorem exists_session (calls : List Call) (source : Stream) :
    ∃ events target, events.map Event.call = calls ∧ source.Session events target := by
  induction calls generalizing source with
  | nil => exact ⟨[], source, rfl, .start source⟩
  | cons call calls ih =>
    obtain ⟨log, talks, made⟩ := call.makes source
    obtain ⟨events, target, same, session⟩ := ih (call.perform source).2
    refine ⟨⟨call, log, (call.perform source).1⟩ :: events, target, ?_, ?_⟩
    · rw [List.map_cons, same]
    · exact .next rfl talks made session

namespace Session

variable {source target : Stream} {events : List Event}

theorem talks (session : source.Session events target) :
    source.Talks (events.flatMap Event.log) target := by
  induction session with
  | start stream => exact .silent stream
  | next _ talks _ _ ih => exact talks_append.mpr ⟨_, talks, ih⟩

theorem made (session : source.Session events target) {event : Event} (member : event ∈ events) :
    event.call.Makes event.log event.result := by
  induction session with
  | start => cases member
  | next _ _ made _ ih =>
    rcases List.mem_cons.mp member with rfl | later
    · exact made
    · exact ih later

end Session

/-- Whether the call may take no token: it asks what is ahead, or a demand was not met. -/
def Event.keepsAll (event : Event) : Bool :=
  match event.call, event.result with
  | .peek, _ | .sees _, _ | .expect _, .error _ => true
  | _, _ => false

private theorem Event.delivered_of_keepsAll {event : Event}
    (made : event.call.Makes event.log event.result) (keeps : event.keepsAll = true) :
    delivered event.log = [] := by
  rcases event with ⟨call, log, result⟩
  cases made with
  | peek reply | sees demand reply | unmet | unanswered => rfl
  | take reply | met | parse => cases keeps

/-- An error that was raised ends every call, whatever the call is. -/
theorem Call.Makes.course {call : Call} {log : List Exchange} {result : Except Failure Answer}
    (made : call.Makes log result) : Course log result := by
  cases made with
  | peek reply | sees demand reply | take reply =>
    cases reply with
    | ok found => exact .done _ rfl _
    | error cause => exact .raised [] rfl _ cause
  | met => exact .done _ rfl _
  | unmet => exact .failed _ rfl rfl
  | unanswered demand cause => exact .raised [] rfl _ cause
  | parse course =>
    cases course with
    | done log quiet expr => exact .done log quiet _
    | failed log quiet own => exact .failed log quiet own
    | raised log quiet request cause => exact .raised log quiet request cause

/-- A result is the error of the scan exactly if one of the requests has raised it. -/
theorem Course.eq_error_iff {α : Type} {log : List Exchange} {result : Except Failure α}
    (course : Course log result) {cause : Error} (lexical : (Failure.error cause).isLexical = true)
    (known : ∀ request other, ⟨request, .error other⟩ ∈ log → other = cause) :
    result = .error (.error cause) ↔ log.any Exchange.raises = true := by
  cases course with
  | done log quiet value => simp [quiet]
  | failed log quiet own =>
    rw [quiet]
    refine ⟨fun same => ?_, nofun⟩
    obtain rfl := Except.error.inj same
    cases own.symm.trans lexical
  | raised log quiet request other =>
    obtain rfl := known request other (List.mem_append_right _ List.mem_cons_self)
    simp [Exchange.raises]

/-- How the tokens of a scan come to those who call its stream. -/
structure Delivery (scan : Scan) (source : Stream) (events : List Event) (target : Stream) :
    Prop where
  /-- At every moment, also in the middle of a call, tokens were delivered in order and all others
  are still there. At most the next one was read ahead. -/
  moments : ∀ front back, events.flatMap Event.log = front ++ back →
    ∃ stream, source.Talks front stream ∧ stream.Talks back target ∧ Moment scan front stream ∧
      scan.tokens.drop ((delivered front).length + 1) <:+ stream.upcoming
  /-- Looking ahead takes nothing, and neither does a demand that is not met. -/
  untouched : ∀ event ∈ events, event.keepsAll = true → delivered event.log = []
  /-- What is found ahead is what is taken next. -/
  lookahead : ∀ front found between reply back, events.flatMap Event.log =
      front ++ ⟨.look, .ok found⟩ :: (between ++ ⟨.take, reply⟩ :: back) →
    (∀ exchange ∈ between, exchange.request = .look) → reply = .ok found
  /-- The error of the scan is raised by the first request behind the last token. -/
  raised : ∀ front exchange back, events.flatMap Event.log = front ++ exchange :: back →
    delivered front = scan.tokens.map some → front.any Exchange.raises = false →
      ∀ cause, scan.fault = some cause → exchange.reply = .error cause
  /-- It is raised by no other request. From then on the stream is at its end. -/
  raisedOnce : ∀ front request cause back,
    events.flatMap Event.log = front ++ ⟨request, .error cause⟩ :: back →
      scan.fault = some cause ∧ delivered front = scan.tokens.map some ∧
        (∀ exchange ∈ front, ∃ token, exchange.reply = .ok (some token)) ∧
        ∀ exchange ∈ back, exchange.reply = .ok none
  /-- The call that has made this request fails with the error, and no other call does. -/
  failures : ∀ cause, scan.fault = some cause → ∀ event ∈ events,
    event.result = .error (.error cause) ↔ event.log.any Exchange.raises = true

/-- A stream delivers the tokens of its text once each and in order, whatever calls are made: there
is a record of every session, and each such record shows it. -/
theorem delivers_tokens_in_order (text : String) (endPosition : Int) :
    (∀ calls : List Call, ∃ events target, events.map Event.call = calls ∧
      (ofScan (Scan.ofString text) endPosition).Session events target) ∧
    ∀ events target, (ofScan (Scan.ofString text) endPosition).Session events target →
      Delivery (Scan.ofString text) (ofScan (Scan.ofString text) endPosition) events target := by
  refine ⟨fun calls => exists_session calls _, fun events target session => ?_⟩
  have talks := session.talks
  refine ⟨?_, ?_, ?_, ?_, ?_, ?_⟩
  · intro front back whole
    obtain ⟨stream, before, after, moment⟩ := talks.moment whole
    exact ⟨stream, before, after, moment, moment.upcoming⟩
  · exact fun event member keeps => Event.delivered_of_keepsAll (session.made member) keeps
  · exact fun front found between reply back whole looks => talks.look_before_take whole looks
  · intro front exchange back whole all quiet cause known
    rw [talks.reply_eq whole, answer_eq_error_iff, pending_eq_some_iff, all, List.length_map]
    exact ⟨List.getElem?_eq_none (Nat.le_refl _), quiet, known⟩
  · exact fun front request cause back whole => talks.around_error whole
  · intro cause known event member
    obtain ⟨c, place, rfl, -⟩ := (Scan.placed_ofString text).stray cause known
    refine (session.made member).course.eq_error_iff rfl fun request other raised => ?_
    have raisedBefore : ⟨request, .error other⟩ ∈ events.flatMap Event.log :=
      List.mem_flatMap.mpr ⟨event, member, raised⟩
    obtain ⟨front, back, whole⟩ := List.append_of_mem raisedBefore
    have fault := (talks.around_error whole).1
    exact Option.some.inj (fault.symm.trans known)

end Stream

end MiniFun
