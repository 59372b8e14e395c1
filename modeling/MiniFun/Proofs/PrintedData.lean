import MiniFun.Proofs.DelimitedContexts
import MiniFun.Proofs.PrintedFunctions
import MiniFun.Proofs.RefusedTokens

/-! # Printed data reads back

Integers, truth values, the empty list and pairs of these are printed like the expressions that
build them. The parentheses around each pair keep the shape of a value however it is nested, so that
its text is a program for the value, and no two values have the same text.

There are no negative numerals in programs. A minus sign is an operator, and in the text of a value
there is never an operand in front of it: the text is refused at its first minus sign.
-/

namespace MiniFun

open Text

namespace Value

/-- The values that are built from integers that can be written, truth values, the empty list and
pairs. -/
inductive Ground : Value → Prop
  | int {value : Int} (short : (Nat.toDigits 10 value.natAbs).length ≤ numeralLimit) :
      Ground (.int value)
  | bool (value : Bool) : Ground (.bool value)
  | nil : Ground .nil
  | pair {head tail : Value} : Ground head → Ground tail → Ground (.pair head tail)

def hasNegative : Value → Bool
  | int value => value < 0
  | pair head tail => head.hasNegative || tail.hasNegative
  | _ => false

def depth : Value → Nat
  | pair head tail => max head.depth tail.depth + 1
  | _ => 0

/-- The expression that builds the value, if there is one. -/
def literal : Value → Expr
  | int value => .int value
  | bool value => .bool value
  | nil => .nil
  | pair head tail => .binary .cons head.literal tail.literal
  | other => .embedded other

private theorem isOpen_literal (value : Value) : value.literal.isOpen = false := by
  cases value <;> rfl

/-- A value is shown as the expression that builds it. -/
theorem text?_literal (value : Value) : value.literal.text? = value.text? := by
  induction value with
  | int | bool | nil | closure | primitive | failed => rfl
  | pair head tail ihHead ihTail =>
    have enclosed (part : Value) (text : String) : part.literal.enclose text = text := by
      rw [Expr.enclose, part.isOpen_literal]
      rfl
    have spaced (first second : String) : "(" ++ first ++ " " ++ ":" ++ " " ++ second ++ ")" =
        "(" ++ first ++ " : " ++ second ++ ")" := by simp [← String.toList_inj]
    simp [literal, Expr.text?, text?, ihHead, ihTail, enclosed, Operator.symbol, spaced]

private theorem text?_int {value : Int}
    (short : (Nat.toDigits 10 value.natAbs).length ≤ numeralLimit) :
    (int value).text? = some (decimal value) := by
  rw [text?, writeNumeral?, if_pos (lt_unwritable_iff.mpr short)]

private theorem text?_pair {head tail : Value} {headText tailText : String}
    (headPrinted : head.text? = some headText) (tailPrinted : tail.text? = some tailText) :
    (pair head tail).text? = some ("(" ++ headText ++ " : " ++ tailText ++ ")") := by
  rw [text?, headPrinted, tailPrinted]
  rfl

theorem Ground.exists_text? {value : Value} (ground : value.Ground) :
    ∃ text, value.text? = some text := by
  induction ground with
  | int short => exact ⟨_, text?_int short⟩
  | bool | nil => exact ⟨_, rfl⟩
  | pair _ _ ihHead ihTail =>
    obtain ⟨_, headPrinted⟩ := ihHead
    obtain ⟨_, tailPrinted⟩ := ihTail
    exact ⟨_, text?_pair headPrinted tailPrinted⟩

/-- Building a value takes one level more than its pairs are nested. -/
theorem Ground.evaluate_literal {value : Value} (ground : value.Ground) (limit : Nat) (env : Env)
    (store : Store) :
    evaluate limit env value.literal store =
      if value.depth < limit then .ok value store else .error .tooDeep store := by
  induction ground generalizing limit with
  | int | bool | nil => cases limit <;> rfl
  | @pair head tail _ _ ihHead ihTail =>
    cases limit with
    | zero => rfl
    | succ limit =>
      have built : evaluate (limit + 1) env (Value.pair head tail).literal = (do
          let headValue ← evaluate limit env head.literal
          let tailValue ← evaluate limit env tail.literal
          return .pair headValue tailValue) := rfl
      have headBuilt := ihHead limit
      have tailBuilt := ihTail limit
      rw [built, depth]
      by_cases headFits : head.depth < limit
      · rw [if_pos headFits] at headBuilt
        rw [bind_of_ok headBuilt]
        by_cases tailFits : tail.depth < limit
        · rw [if_pos tailFits] at tailBuilt
          rw [bind_of_ok tailBuilt, if_pos (by omega)]
          rfl
        · rw [if_neg tailFits] at tailBuilt
          rw [bind_of_error tailBuilt, if_neg (by omega)]
      · rw [if_neg headFits] at headBuilt
        rw [bind_of_error headBuilt, if_neg (by omega)]

/-! ## Values without a sign -/

section

variable {value : Value} (ground : value.Ground) (unsigned : value.hasNegative = false)
include ground unsigned

theorem Ground.wellFormed_literal : value.literal.WellFormed := by
  induction ground with
  | @int value short =>
    have nonneg : 0 ≤ value := by simpa [hasNegative] using unsigned
    refine ⟨nonneg, ?_⟩
    rw [← String.length_toList, decimal_of_nonneg nonneg]
    exact short
  | bool | nil => trivial
  | pair _ _ ihHead ihTail =>
    rw [hasNegative, Bool.or_eq_false_iff] at unsigned
    exact ⟨ihHead unsigned.1, ihTail unsigned.2⟩

/-- The words of a value without a sign are an atom. -/
private theorem Ground.derives_literal :
    Derives .atom .closed value.literal.words value.literal := by
  have derivable := (ground.wellFormed_literal unsigned).derivable
  rw [Expr.Derivable, Expr.category, Expr.ending, isOpen_literal] at derivable
  exact derivable

variable {text : String} (printed : value.text? = some text)
include printed

private theorem Ground.spells_literal : Spells text.toList value.literal.words := by
  obtain ⟨other, alsoPrinted, spelled⟩ := (ground.wellFormed_literal unsigned).text
  rw [text?_literal, printed] at alsoPrinted
  obtain rfl := Option.some.inj alsoPrinted
  exact spelled

/-- The text of a value without a sign is a program. -/
theorem Ground.parse_text : parse text = .ok value.literal :=
  parse_of_spells (ground.spells_literal unsigned printed)
    ⟨_, (Derives.single (ground.derives_literal unsigned)).ofApplication _⟩

private theorem Ground.minus_notMem_text : '-' ∉ text.toList := by
  induction ground generalizing text with
  | @int value short =>
    have nonneg : 0 ≤ value := by simpa [hasNegative] using unsigned
    obtain rfl := Option.some.inj ((text?_int short).symm.trans printed)
    rw [decimal_of_nonneg nonneg]
    intro member
    cases isDigit_of_mem_toDigits member
  | bool value =>
    obtain rfl := Option.some.inj printed
    cases value <;> decide
  | nil =>
    obtain rfl := Option.some.inj printed
    decide
  | pair head tail ihHead ihTail =>
    rw [hasNegative, Bool.or_eq_false_iff] at unsigned
    obtain ⟨headText, headPrinted⟩ := head.exists_text?
    obtain ⟨tailText, tailPrinted⟩ := tail.exists_text?
    obtain rfl := Option.some.inj ((text?_pair headPrinted tailPrinted).symm.trans printed)
    have inHead := ihHead unsigned.1 headPrinted
    have inTail := ihTail unsigned.2 tailPrinted
    simp [inHead, inTail]

end

/-- Values without a sign have texts of their own. -/
theorem Ground.eq_of_text?_eq {first second : Value} (ground : first.Ground)
    (unsigned : first.hasNegative = false) (alsoGround : second.Ground)
    (alsoUnsigned : second.hasNegative = false) (same : first.text? = second.text?) :
    first = second := by
  obtain ⟨text, printed⟩ := ground.exists_text?
  have parsed := ground.parse_text unsigned printed
  have alsoParsed := alsoGround.parse_text alsoUnsigned (same.symm.trans printed)
  have sameLiteral := Except.ok.inj (parsed.symm.trans alsoParsed)
  -- Both values are what this one expression builds, given enough levels.
  have built := ground.evaluate_literal (max first.depth second.depth + 1) .empty .empty
  have alsoBuilt := alsoGround.evaluate_literal (max first.depth second.depth + 1) .empty .empty
  rw [if_pos (by omega)] at built alsoBuilt
  rw [sameLiteral, alsoBuilt] at built
  exact (EStateM.Result.ok.inj built).1.symm

end Value

/-! ## Scanning up to a minus sign -/

namespace Piece

/-- A piece with a minus sign in it begins with one. -/
private theorem Valid.begins_with_minus {piece : Piece} (valid : piece.Valid)
    (member : '-' ∈ piece.chars) :
    piece.chars.head? = some '-' := by
  cases piece with
  | comment text =>
    obtain ⟨body, spelled, -⟩ := valid
    rw [chars, spelled]
    rfl
  | word lexeme =>
    cases lexeme with
    | number digits =>
      obtain ⟨first, rest, spelled, digit, others⟩ := valid
      rw [chars, Lexeme.text, spelled] at member
      rcases List.mem_cons.mp member with rfl | later
      · cases digit
      · cases others _ later
    | ident name => exact (SpelledAsName.notMem valid.spelled rfl rfl member).elim
    | keyword word => exact (word.spelledAsName.notMem rfl rfl member).elim
    | operator op => revert member; cases op <;> decide
    | _ => revert member; decide

/-- In front of the first minus sign the scanner does not look behind it. -/
private theorem first?_append_minus {front : List Char} (nonempty : front ≠ [])
    (absent : '-' ∉ front) (behind : List Char) :
    first? (front ++ '-' :: behind) = first? front := by
  refine first?_append_of_iff fun piece valid => ?_
  by_cases member : '-' ∈ piece.chars
  · obtain ⟨first, rest, rfl⟩ := List.exists_cons_of_ne_nil nonempty
    obtain ⟨chars, spelled⟩ := List.head?_eq_some_iff.mp (valid.begins_with_minus member)
    rw [List.mem_cons, not_or] at absent
    simp [spelled, List.cons_prefix_cons, absent.1]
  · exact prefix_append_cons_iff member front behind

end Piece

private theorem Scan.ofCharsFrom_append_minus (position : Nat) {front : List Char}
    (absent : '-' ∉ front) {digit : Char} (isDigit : isDigit digit = true) (behind : List Char) :
    ofCharsFrom position 0 (front ++ '-' :: digit :: behind) =
      (ofCharsFrom position 0 front).followedBy
        ((ofCharsFrom (position + front.length + 1) 0 (digit :: behind)).push
          ⟨.operator .minus, position + front.length⟩) := by
  have cut : ∀ text, text <:+ front → text ≠ [] →
      Piece.first? (text ++ '-' :: digit :: behind) = Piece.first? text := by
    intro text within nonempty
    exact Piece.first?_append_minus nonempty (fun member => absent (within.mem member)) _
  have found : Piece.first? ('-' :: digit :: behind) = some (.word (.operator .minus)) := by
    rw [Piece.first?]
    all_goals
      rintro _ same
      obtain ⟨rfl, -⟩ := List.cons.inj same
      cases isDigit
  rw [ofCharsFrom_append cut]
  congr 1
  exact @ofCharsFrom_piece (.word (.operator .minus)) _ found _

/-! ## Values with a sign -/

private theorem Derivable.ofAtom {words : List Lexeme} (derivable : Derivable .atom words) :
    Derivable .expression words := by
  obtain ⟨_, _, derived⟩ := derivable
  obtain rfl := derived.closed_of_atom
  exact ((Derives.single derived).ofApplication .disjunction).derivable

/-- What begins an atom can be the last operand in parentheses, which are an atom again. -/
private theorem Completes.inParentheses {words : List Lexeme}
    (begins : Completes (Derivable .atom) words) (front : List Lexeme)
    (fits : ∀ inner expr, Derives .atom .closed inner expr →
      Derivable .expression (front ++ inner)) :
    Completes (Derivable .atom) (.leftParen :: (front ++ words)) := by
  obtain ⟨suffix, valid, _, _, derived⟩ := begins
  obtain rfl := derived.closed_of_atom
  obtain ⟨_, _, whole⟩ := fits _ _ derived
  refine ⟨suffix ++ [.rightParen], List.forall_mem_append.mpr ⟨valid, by simp [Lexeme.Valid]⟩, ?_⟩
  simpa using (Derives.parentheses whole).derivable

/-- The characters are read as the words, which begin an atom, and an operand is due behind them. -/
structure OperandDue (front : List Char) (words : List Lexeme) : Prop where
  unsigned : '-' ∉ front
  read : Delimited front words
  begins : Completes (Derivable .atom) words
  due : ∀ rest, operatorsPlaced false (words ++ .operator .minus :: rest) = false

namespace OperandDue

private theorem nil : OperandDue [] [] := by
  refine ⟨List.not_mem_nil, fun _ _ => ⟨rfl, rfl⟩, ?_, fun _ => rfl⟩
  exact .with_fillers [.filler] rfl ⟨_, _, .reference "x"⟩

/-- At the first operand in parentheses. -/
private theorem inHead {front : List Char} {words : List Lexeme} (due : OperandDue front words) :
    OperandDue ('(' :: front) (.leftParen :: words) where
  unsigned := by simp [due.unsigned]
  read := Delimited.leftParen.append due.read
  begins := due.begins.inParentheses [] fun _ _ derived => derived.derivable.ofAtom
  due := due.due

/-- At the second operand in parentheses, behind a first one that is complete. -/
private theorem inTail {text front : List Char} {first words : List Lexeme} {expr : Expr}
    (unsigned : '-' ∉ text) (spelled : Spells text first)
    (derived : Derives .atom .closed first expr) (due : OperandDue front words) :
    OperandDue ('(' :: (text ++ [' ', ':', ' '] ++ front))
      (.leftParen :: (first ++ .operator .cons :: words)) where
  unsigned := by simp [unsigned, due.unsigned]
  read := by
    have text := Delimited.leftParen.append ((Delimited.spaced spelled).append
      ((Delimited.spaced (.operator .cons)).append due.read))
    simpa [Operator.symbol] using text
  begins := by
    have begins := due.begins.inParentheses (first ++ [.operator .cons]) fun inner _ second => by
      simpa using (Derives.ofAtoms .cons derived second).toExpression.derivable
    simpa using begins
  due rest := by
    have placed := derived.operatorsPlaced_append false
      (.operator .cons :: (words ++ .operator .minus :: rest))
    simpa [operatorsPlaced, Lexeme.endsOperand, due.due] using placed

/-- A minus sign is refused where an operand is due. -/
theorem parse_eq_error {front : List Char} {words : List Lexeme} (due : OperandDue front words)
    {text : String} {digit : Char} {behind : List Char} (isDigit : isDigit digit = true)
    (spelled : text.toList = front ++ '-' :: digit :: behind) :
    ∃ fault, parse text = .error (.error (.malformed fault (some front.length))) := by
  obtain ⟨frontWords, frontSound⟩ := due.read [] 0
  rw [List.append_nil] at frontWords frontSound
  have scanned := Scan.ofCharsFrom_append_minus 0 due.unsigned isDigit behind
  rw [← spelled, Scan.followedBy, frontSound, Nat.zero_add] at scanned
  have tokens := congrArg Scan.tokens scanned
  have front_eq : (Scan.ofCharsFrom 0 0 front).tokens.map Token.lexeme = words := by
    rw [← Scan.words, frontWords]
    exact List.append_nil words
  refine parse_refuses tokens (by simp) ?_ fun rest => ?_
  · obtain ⟨suffix, valid, derivable⟩ := due.begins
    rw [front_eq]
    exact ⟨suffix, valid, derivable.ofAtom⟩
  · rw [front_eq]
    exact not_derivable_of_misplaced (due.due rest)

end OperandDue

/-- The first minus sign in the text of a value stands where an operand is due. -/
theorem Value.Ground.operandDue {value : Value} (ground : value.Ground)
    (negative : value.hasNegative = true) {text : String} (printed : value.text? = some text) :
    ∃ front words digit behind, isDigit digit = true ∧
      text.toList = front ++ '-' :: digit :: behind ∧ OperandDue front words := by
  induction ground generalizing text with
  | @int value short =>
    have sign : value < 0 := by simpa [hasNegative] using negative
    obtain rfl := Option.some.inj ((text?_int short).symm.trans printed)
    cases digits : Nat.toDigits 10 value.natAbs with
    | nil => exact (Nat.toDigits_ne_nil digits).elim
    | cons digit behind =>
      refine ⟨[], [], digit, behind, ?_, ?_, .nil⟩
      · exact isDigit_of_mem_toDigits (digits ▸ List.mem_cons_self)
      · simp [decimal, sign, digits]
  | bool | nil => cases negative
  | @pair head tail headGround tailGround ihHead ihTail =>
    obtain ⟨headText, headPrinted⟩ := headGround.exists_text?
    obtain ⟨tailText, tailPrinted⟩ := tailGround.exists_text?
    obtain rfl := Option.some.inj ((text?_pair headPrinted tailPrinted).symm.trans printed)
    cases inHead : head.hasNegative with
    | true =>
      obtain ⟨front, words, digit, behind, isDigit, spelled, due⟩ := ihHead inHead headPrinted
      refine ⟨_, _, digit, behind ++ (" : " ++ tailText ++ ")").toList, isDigit, ?_, due.inHead⟩
      simp [spelled]
    | false =>
      rw [hasNegative, inHead, Bool.false_or] at negative
      obtain ⟨front, words, digit, behind, isDigit, spelled, due⟩ := ihTail negative tailPrinted
      have unsigned := headGround.minus_notMem_text inHead headPrinted
      refine ⟨_, _, digit, behind ++ [')'], isDigit, ?_, due.inTail unsigned
        (headGround.spells_literal inHead headPrinted) (headGround.derives_literal inHead)⟩
      simp [spelled]

/-! ## Texts of values as programs -/

private theorem evaluateSource_of_error {source : String} {failure : Failure}
    (failed : parse source = .error failure) (limit : Nat) (env : Env) (store : Store) :
    evaluateSource limit env source store = .error failure store := by
  rw [evaluateSource, failed]
  rfl

/-- The text of data is a program for it, wherever it is evaluated, unless there is a negative
integer in it. Its evaluation gives the value itself, or gives up if the limit does not exceed the
depth of the value. A text with a negative integer is refused at its first minus sign. Values
without a negative integer have different texts. -/
theorem printed_data_reads_back (interpreter : Interpreter) (store : Store) {value : Value}
    (ground : value.Ground) :
    ∃ text, value.text? = some text ∧
      (value.hasNegative = false →
        (∀ limit, evaluateSource limit interpreter.env text store =
          if value.depth < limit then .ok value store else .error .tooDeep store) ∧
        ∀ other : Value, other.Ground → other.hasNegative = false →
          other.text? = some text → other = value) ∧
      (value.hasNegative = true → '-' ∈ text.toList ∧
        ∃ fault, ∀ limit, evaluateSource limit interpreter.env text store =
          .error (.error (.malformed fault (some (text.toList.idxOf '-')))) store) := by
  obtain ⟨text, printed⟩ := ground.exists_text?
  refine ⟨text, printed, fun unsigned => ⟨fun limit => ?_, ?_⟩, fun negative => ?_⟩
  · rw [evaluateSource_of_ok (ground.parse_text unsigned printed)]
    exact ground.evaluate_literal limit interpreter.env store
  · intro other alsoGround alsoUnsigned alsoPrinted
    exact alsoGround.eq_of_text?_eq alsoUnsigned ground unsigned (alsoPrinted.trans printed.symm)
  · obtain ⟨front, words, digit, behind, isDigit, spelled, due⟩ :=
      ground.operandDue negative printed
    obtain ⟨fault, failed⟩ := due.parse_eq_error isDigit spelled
    have place : text.toList.idxOf '-' = front.length := by
      rw [spelled, List.idxOf_append, if_neg due.unsigned, List.idxOf_cons_self, Nat.zero_add]
    refine ⟨by simp [spelled], fault, fun limit => ?_⟩
    rw [place]
    exact evaluateSource_of_error failed limit interpreter.env store

/-- Pairs on both sides of a pair, with improper ends, and a truth value beside an integer. In the
second value the first minus sign is not the only one. -/
theorem printed_data_reads_back_of_nested_pairs :
    let value : Value := .pair (.pair (.int 1) (.bool true)) (.pair .nil (.int 0))
    let negative : Value := .pair (.int 12) (.pair (.int (-5)) (.int (-6)))
    value.Ground ∧ negative.Ground ∧
    value.text? = some "((1 : True) : ([] : 0))" ∧ negative.text? = some "(12 : (-5 : -6))" ∧
    Interpreter.standard.evaluateText "((1 : True) : ([] : 0))" .empty = .ok value .empty ∧
    ∃ fault, Interpreter.standard.evaluateText "(12 : (-5 : -6))" .empty =
      .error (.error (.malformed fault (some 7))) .empty := by
  intro value negative
  have ground : value.Ground :=
    .pair (.pair (.int (by decide)) (.bool true)) (.pair .nil (.int (by decide)))
  have alsoGround : negative.Ground :=
    .pair (.int (by decide)) (.pair (.int (by decide)) (.int (by decide)))
  have printed : value.text? = some "((1 : True) : ([] : 0))" := by decide +kernel
  have alsoPrinted : negative.text? = some "(12 : (-5 : -6))" := by decide +kernel
  obtain ⟨_, shown, readBack, -⟩ := printed_data_reads_back .standard .empty ground
  obtain ⟨_, alsoShown, -, refused⟩ := printed_data_reads_back .standard .empty alsoGround
  obtain rfl := Option.some.inj (printed.symm.trans shown)
  obtain rfl := Option.some.inj (alsoPrinted.symm.trans alsoShown)
  obtain ⟨-, fault, refused⟩ := refused (by decide)
  exact ⟨ground, alsoGround, printed, alsoPrinted, (readBack (by decide)).1 nestingLimit,
    fault, refused nestingLimit⟩

end MiniFun
