import MiniFun.Proofs.CodeProvenance

/-! # What is shown stands on one line

Whatever a program without bindings of a host program is, the text of its result has no line feed.
Names and numerals have none, code is printed with spaces alone, and a message quotes what it cites
with every line feed escaped. Messages cite names from the code that was evaluated and words of the
program, and never a text of the host program.

A text that begins like an error is an error: no other value begins with a letter other than the
first one of a truth value.
-/

namespace MiniFun

open Text

def OneLine (text : String) : Prop :=
  '\n' ∉ text.toList

instance (text : String) : Decidable (OneLine text) :=
  inferInstanceAs (Decidable ('\n' ∉ text.toList))

theorem OneLine.append {first second : String} (front : OneLine first) (back : OneLine second) :
    OneLine (first ++ second) := by
  rw [OneLine, String.toList_append, List.mem_append, not_or]
  exact ⟨front, back⟩

/-! ## Numerals, names and quotations -/

private theorem digitChar_ne_newline (digit : Nat) : digit.digitChar ≠ '\n' := by
  grind [Nat.digitChar]

private theorem newline_notMem_toDigits {base : Nat} (large : 1 < base) (n : Nat) :
    '\n' ∉ Nat.toDigits base n := by
  induction n using Nat.strongRecOn with
  | ind n ih =>
    by_cases small : n < base
    · rw [Nat.toDigits_of_lt_base small, List.mem_singleton]
      exact (digitChar_ne_newline n).symm
    · have shorter : n / base < n := Nat.div_lt_self (by omega) large
      rw [Nat.toDigits_of_base_le large (by omega), List.mem_append, List.mem_singleton, not_or]
      exact ⟨ih _ shorter, (digitChar_ne_newline _).symm⟩

private theorem oneLine_decimal (n : Int) : OneLine (decimal n) := by
  have digits := newline_notMem_toDigits (by decide : 1 < 10) n.natAbs
  rw [OneLine, decimal, String.toList_ofList]
  split
  · simp [digits]
  · exact digits

private theorem oneLine_of_isName {name : String} (isName : IsName name) : OneLine name := by
  obtain ⟨first, rest, spelled, starts, continues⟩ := isName.spelled
  rw [OneLine, spelled, List.mem_cons, not_or]
  refine ⟨?_, fun member => ?_⟩
  · rintro rfl
    cases starts
  · cases continues _ member

private theorem newline_notMem_hexadecimal (width code : Nat) : '\n' ∉ hexadecimal width code := by
  have digits := newline_notMem_toDigits (by decide : 1 < 16) code
  simp [hexadecimal, digits]

/-- A line feed is never quoted as itself. -/
private theorem newline_notMem_escape {quote : Char} (other : quote ≠ '\n') (c : Char) :
    '\n' ∉ escape quote c := by
  unfold escape
  split
  · rename_i special
    have differs : c ≠ '\n' := by
      rintro rfl
      obtain same | same := special
      · exact other same.symm
      · cases same
    simp [differs.symm]
  split
  · decide
  split
  · decide
  split
  · decide
  split
  · rename_i printable
    have differs : c ≠ '\n' := by
      rintro rfl
      cases printable
    simp [differs.symm]
  split
  · simp [newline_notMem_hexadecimal]
  split
  · simp [newline_notMem_hexadecimal]
  · simp [newline_notMem_hexadecimal]

private theorem oneLine_quoted (text : String) : OneLine (quoted text) := by
  have quote : quoteFor text.toList ≠ '\n' := by
    unfold quoteFor
    split
    · decide
    · decide
  have body : '\n' ∉ text.toList.flatMap (escape (quoteFor text.toList)) := by
    simp [newline_notMem_escape quote]
  simp [OneLine, quoted, quote.symm, body]

/-! ## Code and values -/

private theorem oneLine_symbol (op : Operator) : OneLine op.symbol := by
  cases op <;> decide

private theorem oneLine_boolText (value : Bool) : OneLine (boolText value) := by
  cases value <;> decide

private theorem oneLine_enclose {text : String} (inner : OneLine text) (operand : Expr) :
    OneLine (operand.enclose text) := by
  unfold Expr.enclose
  split
  · exact .append (.append (by decide) inner) (by decide)
  · exact inner

private theorem oneLine_writeNumeral {n : Int} {text : String}
    (written : writeNumeral? n = some text) :
    OneLine text := by
  unfold writeNumeral? at written
  split at written
  · cases written
    exact oneLine_decimal n
  · cases written

theorem Expr.WellFormed.oneLine {expr : Expr} (wellFormed : expr.WellFormed) {text : String}
    (printed : expr.text? = some text) : OneLine text := by
  induction expr generalizing text with
  | int value => exact oneLine_writeNumeral printed
  | bool value =>
    cases printed
    exact oneLine_boolText value
  | var name =>
    cases printed
    exact oneLine_of_isName wellFormed
  | nil =>
    cases printed
    decide
  | binary op left right ihLeft ihRight =>
    simp only [text?, Option.bind_eq_bind, Option.bind_eq_some_iff, Option.pure_def,
      Option.some.injEq] at printed
    obtain ⟨leftText, leftPrinted, rightText, rightPrinted, rfl⟩ := printed
    have first := oneLine_enclose (ihLeft wellFormed.1 leftPrinted) left
    have last := oneLine_enclose (ihRight wellFormed.2 rightPrinted) right
    refine .append (.append ?_ last) (by decide)
    exact .append (.append (.append (.append (by decide) first) (by decide)) (oneLine_symbol op))
      (by decide)
  | cond test consequent alternative ihTest ihConsequent ihAlternative =>
    simp only [text?, Option.bind_eq_bind, Option.bind_eq_some_iff, Option.pure_def,
      Option.some.injEq] at printed
    obtain ⟨_, testPrinted, _, consequentPrinted, _, alternativePrinted, rfl⟩ := printed
    refine .append (.append ?_ (by decide)) (ihAlternative wellFormed.2.2 alternativePrinted)
    refine .append (.append ?_ (by decide)) (ihConsequent wellFormed.2.1 consequentPrinted)
    exact .append (by decide) (ihTest wellFormed.1 testPrinted)
  | letIn name bound body ihBound ihBody =>
    simp only [text?, Option.bind_eq_bind, Option.bind_eq_some_iff, Option.pure_def,
      Option.some.injEq] at printed
    obtain ⟨_, boundPrinted, _, bodyPrinted, rfl⟩ := printed
    refine .append (.append ?_ (by decide)) (ihBody wellFormed.2.2 bodyPrinted)
    refine .append (.append ?_ (by decide)) (ihBound wellFormed.2.1 boundPrinted)
    exact .append (by decide) (oneLine_of_isName wellFormed.1)
  | lambda param body ih =>
    simp only [text?, Option.bind_eq_bind, Option.bind_eq_some_iff, Option.pure_def,
      Option.some.injEq] at printed
    obtain ⟨_, bodyPrinted, rfl⟩ := printed
    refine .append (.append ?_ (by decide)) (ih wellFormed.2 bodyPrinted)
    exact .append (by decide) (oneLine_of_isName wellFormed.1)
  | apply function argument ihFunction ihArgument =>
    simp only [text?, Option.bind_eq_bind, Option.bind_eq_some_iff, Option.pure_def,
      Option.some.injEq] at printed
    obtain ⟨_, functionPrinted, _, argumentPrinted, rfl⟩ := printed
    have first := oneLine_enclose (ihFunction wellFormed.1 functionPrinted) function
    have last := oneLine_enclose (ihArgument wellFormed.2 argumentPrinted) argument
    exact .append (.append (.append (.append (by decide) first) (by decide)) last) (by decide)
  | unknown | embedded => exact wellFormed.elim

/-- The free names of well-formed code are names. -/
private theorem Expr.WellFormed.isName {expr : Expr} (wellFormed : expr.WellFormed) {name : String}
    (free : expr.Free name) : IsName name := by
  induction expr with
  | int | bool | nil => exact free.elim
  | unknown | embedded => exact wellFormed.elim
  | var other =>
    obtain rfl : other = name := free
    exact wellFormed
  | binary op left right ihLeft ihRight | apply left right ihLeft ihRight =>
    obtain free | free := free
    · exact ihLeft wellFormed.1 free
    · exact ihRight wellFormed.2 free
  | cond test consequent alternative ihTest ihConsequent ihAlternative =>
    obtain free | free | free := free
    · exact ihTest wellFormed.1 free
    · exact ihConsequent wellFormed.2.1 free
    · exact ihAlternative wellFormed.2.2 free
  | letIn other bound body ihBound ihBody =>
    obtain ⟨-, free | free⟩ := free
    · exact ihBound wellFormed.2.1 free
    · exact ihBody wellFormed.2.2 free
  | lambda param body ih => exact ih wellFormed.2 free.2

/-! ## Messages -/

private theorem oneLine_name (op : Operator) : OneLine op.name := by
  cases op <;> decide

private theorem oneLine_mistyped {fault : TypeFault} (raised : fault.isRaised = true) :
    OneLine (Error.mistyped fault).message := by
  cases fault with
  | incomparable op => exact .append (by decide) (oneLine_name op)
  | reported message =>
    obtain rfl : message = "host failure" := by simpa [TypeFault.isRaised] using raised
    decide
  | _ => decide +kernel

private theorem oneLine_describeFound (found : Option String) : OneLine (describeFound found) := by
  cases found with
  | none => decide
  | some text => exact oneLine_quoted text

private theorem oneLine_malformed {fault : SyntaxFault} (own : fault.isReported = false)
    (position : Int) :
    OneLine (Error.malformed fault (some position)).message := by
  have worded : OneLine fault.message := by
    cases fault with
    | strayCharacter c => exact .append (by decide) (oneLine_quoted _)
    | unexpected found => exact .append (by decide) (oneLine_describeFound found)
    | expected wanted found =>
      refine .append (.append ?_ (by decide)) (oneLine_describeFound found)
      exact .append (by decide) (oneLine_quoted wanted)
    | missingParameter => decide
    | chainedComparison op => exact .append (by decide) (oneLine_quoted _)
    | reported message => cases own
  exact .append (.append worded (by decide)) (oneLine_decimal position)

private theorem oneLine_unbound {name : String} (isName : IsName name) :
    OneLine (Error.unbound name none).message ∧
      OneLine (Error.unbound name (some Error.selfReference)).message := by
  have named : OneLine ("unbound variable: " ++ name) :=
    .append (by decide) (oneLine_of_isName isName)
  exact ⟨named, .append (.append (.append named (by decide)) (by decide)) (by decide)⟩

/-- Well-formed code may be evaluated, and may raise errors with messages on one line. -/
def linePolicy : Policy where
  allows := Expr.WellFormed
  makes param body := (Expr.lambda param body).WellFormed
  raises cause := OneLine cause.message
  allows_part := Expr.WellFormed.part
  makes_lambda wellFormed := wellFormed
  raises_mistyped := oneLine_mistyped
  raises_emptyList := by decide
  raises_unknown wellFormed := wellFormed.elim
  raises_embedded wellFormed := wellFormed.elim
  raises_unfilled wellFormed _ _ := (oneLine_unbound wellFormed.1).2

theorem linePolicy_tolerant : linePolicy.Tolerant :=
  ⟨fun wellFormed => wellFormed.2, fun wellFormed free => oneLine_unbound (wellFormed.isName free)⟩

/-! ## Results -/

def errorMark : String := "ERROR: "

/-- No integer is written with a letter. -/
private theorem letter_notMem_decimal (n : Int) : 'E' ∉ (decimal n).toList := by
  have digits : 'E' ∉ Nat.toDigits 10 n.natAbs := by
    intro member
    cases Nat.isDigit_of_mem_toDigits (by decide) (by decide) member
  rw [decimal, String.toList_ofList]
  split
  · simp [digits]
  · exact digits

/-- The text of a value that is no error value begins otherwise. -/
theorem Value.not_errorMark {value : Value} (plain : value.isFailed = false) {shown : String}
    (printed : value.text? = some shown) : ¬ errorMark.toList <+: shown.toList := by
  rintro ⟨rest, spelled⟩
  have first : shown.toList.head? = some 'E' := by
    rw [← spelled]
    rfl
  cases value with
  | failed message => cases plain
  | int value =>
    simp only [text?, writeNumeral?, Option.ite_none_right_eq_some, Option.some.injEq] at printed
    obtain ⟨-, rfl⟩ := printed
    exact letter_notMem_decimal value (List.mem_of_head? first)
  | bool value =>
    cases printed
    cases value <;> cases first
  | nil =>
    cases printed
    cases first
  | primitive function =>
    cases printed
    simp at first
  | pair head tail =>
    simp only [text?, Option.bind_eq_bind, Option.bind_eq_some_iff, Option.pure_def,
      Option.some.injEq] at printed
    obtain ⟨_, -, _, -, rfl⟩ := printed
    simp at first
  | closure env param body =>
    simp only [text?, Option.bind_eq_bind, Option.bind_eq_some_iff, Option.pure_def,
      Option.some.injEq] at printed
    obtain ⟨_, -, rfl⟩ := printed
    simp at first

/-- A value whose functions are well formed is shown on one line. -/
theorem Value.oneLine {store : Store} {value : Value}
    (permitted : Throughout store linePolicy.Permits (.value value))
    (untainted : Untainted store (.value value)) {shown : String}
    (printed : value.text? = some shown) : OneLine shown := by
  induction value generalizing shown with
  | int value => exact oneLine_writeNumeral printed
  | bool value =>
    cases printed
    exact oneLine_boolText value
  | nil =>
    cases printed
    decide
  | primitive primitive =>
    cases printed
    change OneLine ("<<primitive: " ++ primitive.function.name ++ ">>")
    cases primitive.function <;> decide
  | failed message => exact (untainted message .refl).elim
  | pair head tail ihHead ihTail =>
    simp only [text?, Option.bind_eq_bind, Option.bind_eq_some_iff, Option.pure_def,
      Option.some.injEq] at printed
    obtain ⟨_, headPrinted, _, tailPrinted, rfl⟩ := printed
    have first := ihHead (permitted.part (.head ..)) (untainted.part (.head ..)) headPrinted
    have last := ihTail (permitted.part (.tail ..)) (untainted.part (.tail ..)) tailPrinted
    exact .append (.append (.append (.append (by decide) first) (by decide)) last) (by decide)
  | closure env param body =>
    simp only [text?, Option.bind_eq_bind, Option.bind_eq_some_iff, Option.pure_def,
      Option.some.injEq] at printed
    obtain ⟨_, bodyPrinted, rfl⟩ := printed
    have wellFormed : (Expr.lambda param body).WellFormed := permitted _ .refl _ _ _ rfl
    have name := oneLine_of_isName wellFormed.1
    have code := wellFormed.2.oneLine bodyPrinted
    exact .append (.append (.append (.append (by decide) name) (by decide)) code) (by decide)

/-- What a program without bindings of a host program evaluates to is shown on one line, and so is
the message of its error. -/
theorem oneLine_of_evaluateText {source : String} {store target : Store} :
    (∀ {value shown}, Interpreter.standard.evaluateText source store = .ok value target →
      value.text? = some shown → OneLine shown ∧ value.isFailed = false) ∧
    ∀ {cause}, Interpreter.standard.evaluateText source store = .error (.error cause) target →
      OneLine cause.message := by
  cases parsed : parse source with
  | error failure =>
    rw [Interpreter.evaluateText_of_error _ store parsed]
    refine ⟨nofun, ?_⟩
    rintro cause ⟨⟩
    obtain ⟨fault, position, rfl, own⟩ := malformed_of_parse parsed
    exact oneLine_malformed own position
  | ok program =>
    rw [Interpreter.evaluateText_of_ok _ parsed]
    have wellFormed := wellFormed_of_parse parsed
    have permitted : Throughout store linePolicy.Permits (.env Interpreter.standard.env) :=
      linePolicy.permits_env .standard (List.forall_mem_nil _)
    have untainted : Untainted store (.env Interpreter.standard.env) :=
      Interpreter.standard.env_of_bindings (.of_parts nofun nofun) (fun _ => .of_parts nofun nofun)
        Untainted.extend (List.forall_mem_nil _)
    refine ⟨fun {value shown} success printed => ⟨?_, ?_⟩, fun failed => ?_⟩
    · exact Value.oneLine (linePolicy_tolerant.permits_of_evaluate permitted wellFormed success)
        (untainted_of_evaluate success untainted) printed
    · cases value with
      | failed message => exact (untainted_of_evaluate success untainted message .refl).elim
      | _ => rfl
    · exact linePolicy_tolerant.raises_of_evaluate permitted wellFormed failed

/-- The result of a run without bindings of a host program is shown on one line, which begins like
an error exactly if the result is an error value. -/
theorem shown_of_runText {source : String} {store target : Store} {value : Value} {shown : String}
    (success : Interpreter.standard.runText source store = .ok value target)
    (printed : value.text? = some shown) :
    OneLine shown ∧ (errorMark.toList <+: shown.toList ↔ value.isFailed = true) := by
  rw [Interpreter.runText_eq_settled] at success
  unfold settled at success
  -- Evaluation makes no error values, so the two cases are told apart by the text.
  split at success
  · rename_i cause middle failed
    cases success
    cases printed
    refine ⟨.append (by decide) (oneLine_of_evaluateText.2 failed), fun _ => rfl, ?_⟩
    intro _
    exact ⟨cause.message.toList, by simp [errorMark]⟩
  · obtain ⟨oneLine, plain⟩ := oneLine_of_evaluateText.1 success printed
    refine ⟨oneLine, fun marked => ?_, fun failed => ?_⟩
    · exact (Value.not_errorMark plain printed marked).elim
    · cases plain.symm.trans failed

end MiniFun
