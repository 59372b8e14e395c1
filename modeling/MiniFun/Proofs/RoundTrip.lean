import MiniFun.Expr.Induction
import MiniFun.Expr.Printer
import MiniFun.Proofs.Numeral
import MiniFun.Proofs.ParserCompleteness
import MiniFun.Proofs.WordScan

/-! # Printed programs read back

The expressions that programs denote are the well-formed ones: built from the nine forms of the
language, with integers that can be written and with names that are identifiers. Printing such an
expression gives a program that denotes it. The argument goes through the words of the program: the
printed text is read as these words, and they derive the expression. Every operand is an atom, with
parentheses of its own if it needs them, so that no level of the grammar has a choice.
-/

namespace MiniFun

open Text

namespace Expr

/-- The expressions of the language: the nine forms that programs have, integers that are not
negative and have at most `numeralLimit` digits, and names that are identifiers. -/
def WellFormed : Expr → Prop
  | int value => 0 ≤ value ∧ (decimal value).length ≤ numeralLimit
  | bool _ | nil => True
  | var name => IsName name
  | binary _ left right => left.WellFormed ∧ right.WellFormed
  | cond test consequent alternative =>
    test.WellFormed ∧ consequent.WellFormed ∧ alternative.WellFormed
  | letIn name bound body => IsName name ∧ bound.WellFormed ∧ body.WellFormed
  | lambda param body => IsName param ∧ body.WellFormed
  | apply function argument => function.WellFormed ∧ argument.WellFormed
  | unknown .. | embedded _ => False

end Expr

/-! ## Every program denotes a well-formed expression -/

private theorem wellFormed_curried {params : List String} {body : Expr}
    (names : ∀ param ∈ params, IsName param) (wellFormed : body.WellFormed) :
    (Expr.curried params body).WellFormed := by
  induction params with
  | nil => exact wellFormed
  | cons param params ih =>
    exact ⟨names param List.mem_cons_self,
      ih fun other member => names other (List.mem_cons_of_mem _ member)⟩

/-- Valid words denote well-formed expressions. -/
theorem Derives.wellFormed {category : Category} {ending : Ending} {words : List Lexeme}
    {expr : Expr} (derived : Derives category ending words expr)
    (valid : ∀ word ∈ words, word.Valid) : expr.WellFormed := by
  induction derived with
  | numeral readable => exact ⟨Int.natCast_nonneg _, length_decimal_le readable⟩
  | truth | falsehood | emptyList => trivial
  | reference name => exact valid (.ident name) List.mem_cons_self
  | parentheses _ ih | list _ ih => exact ih fun word member => valid word (by simp [member])
  | lastItem _ ih => exact ⟨ih valid, trivial⟩
  | single _ ih | operand _ ih => exact ih valid
  | function _ _ ih =>
    refine wellFormed_curried (fun param member => valid (.ident param) ?_)
      (ih fun word member => valid word ?_)
    · simp [member]
    · simp [member]
  | definition name _ _ ihBound ihBody =>
    refine ⟨valid (.ident name) (by simp), wellFormed_curried
      (fun param member => valid (.ident param) ?_) (ihBound fun word member => valid word ?_),
      ihBody fun word member => valid word ?_⟩
    all_goals simp [member]
  | conditional _ _ _ ihTest ihConsequent ihAlternative =>
    exact ⟨ihTest fun word member => valid word (by simp [member]),
      ihConsequent fun word member => valid word (by simp [member]),
      ihAlternative fun word member => valid word (by simp [member])⟩
  | moreItems _ _ ihLeft ihRight | apply _ _ ihLeft ihRight | toLeft _ _ _ _ ihLeft ihRight
  | toRight _ _ _ _ ihLeft ihRight | once _ _ _ _ ihLeft ihRight =>
    exact ⟨ihLeft fun word member => valid word (by simp [member]),
      ihRight fun word member => valid word (by simp [member])⟩

/-- What a text denotes can be found by evaluation. -/
theorem parse_of_toOption {source : String} {expr : Expr}
    (read : (parse source).toOption = some expr) : parse source = .ok expr := by
  cases given : parse source with
  | ok other => simpa [given, Except.toOption] using read
  | error failure => simp [given, Except.toOption] at read

/-- A text that is parsed has no fault, and its words denote the expression. -/
theorem denotes_of_parse {source : String} {expr : Expr} (parsed : parse source = .ok expr) :
    Denotes (Scan.ofString source).words expr ∧ (Scan.ofString source).fault = none := by
  unfold parse at parsed
  split at parsed
  · rename_i result target success
    obtain rfl := Except.ok.inj parsed
    exact Parser.program_sound success
  · cases parsed

theorem wellFormed_of_parse {source : String} {expr : Expr} (parsed : parse source = .ok expr) :
    expr.WellFormed := by
  obtain ⟨⟨ending, derived⟩, -⟩ := denotes_of_parse parsed
  refine derived.wellFormed fun word member => ?_
  obtain ⟨token, present, rfl⟩ := List.mem_map.mp member
  exact Scan.valid_of_mem present

/-! ## The words of a printed expression -/

namespace Expr

/-- An operand, in parentheses if it would extend too far to the right without them. -/
def encloseWords (operand : Expr) (words : List Lexeme) : List Lexeme :=
  if operand.isOpen then .leftParen :: (words ++ [.rightParen]) else words

def words : Expr → List Lexeme
  | int value => [.number (decimal value)]
  | bool value => [.keyword (if value then .trueWord else .falseWord)]
  | var name => [.ident name]
  | nil => [.leftBracket, .rightBracket]
  | binary op left right =>
    .leftParen :: (left.encloseWords left.words ++ .operator op ::
      right.encloseWords right.words ++ [.rightParen])
  | cond test consequent alternative =>
    .keyword .ifWord :: (test.words ++ .keyword .thenWord ::
      (consequent.words ++ .keyword .elseWord :: alternative.words))
  | letIn name bound body =>
    .keyword .letWord :: .ident name :: .equals :: (bound.words ++ .keyword .inWord :: body.words)
  | lambda param body => .backslash :: .ident param :: .arrow :: body.words
  | apply function argument =>
    .leftParen :: (function.encloseWords function.words ++
      argument.encloseWords argument.words ++ [.rightParen])
  | unknown .. | embedded _ => []

end Expr

namespace Derives

/-- An atom is a phrase of every category but that of the items. -/
theorem ofAtom {words : List Lexeme} {expr : Expr} (derived : Derives .atom .closed words expr)
    (level : Level) : Derives level.operand .closed words expr := by
  cases level with
  | product => exact .single derived
  | _ => exact (single derived).ofApplication _

/-- An operation on two atoms is a phrase of its operator's level, however that level combines. -/
theorem ofAtoms {front back : List Lexeme} {left right : Expr} (op : Operator)
    (first : Derives .atom .closed front left) (second : Derives .atom .closed back right) :
    Derives (.operations op.level) .closed (front ++ .operator op :: back)
      (.binary op left right) := by
  cases assoc : op.level.associativity with
  | left => exact .toLeft assoc rfl (.operand (first.ofAtom _)) (second.ofAtom _)
  | right => exact .toRight assoc rfl (first.ofAtom _) (.operand (second.ofAtom _))
  | none => exact .once assoc rfl (first.ofAtom _) (second.ofAtom _)

/-- An operation is an expression, since every level leads to the tighter ones. -/
theorem toExpression {level : Level} {ending : Ending} {words : List Lexeme} {expr : Expr}
    (derived : Derives (.operations level) ending words expr) :
    Derives .expression ending words expr := by
  cases level with
  | disjunction => exact derived
  | conjunction => exact .operand derived
  | comparison => exact .operand (.operand derived)
  | construction => exact .operand (.operand (.operand derived))
  | sum => exact .operand (.operand (.operand (.operand derived)))
  | product => exact .operand (.operand (.operand (.operand (.operand derived))))

end Derives

namespace Expr

/-- What a printed expression is without parentheses around it: a binding form or an atom. -/
def category (expr : Expr) : Category :=
  if expr.isOpen then .application else .atom

def ending (expr : Expr) : Ending :=
  if expr.isOpen then .trailing else .closed

def Derivable (expr : Expr) : Prop :=
  Derives expr.category expr.ending expr.words expr

namespace Derivable

theorem expression {expr : Expr} (derivable : expr.Derivable) :
    Derives .expression expr.ending expr.words expr := by
  unfold Derivable category at derivable
  split at derivable
  · exact derivable.ofApplication _
  · rename_i isClosed
    rw [ending, if_neg isClosed] at derivable ⊢
    exact (Derives.single derivable).ofApplication _

private theorem operand {expr : Expr} (derivable : expr.Derivable) :
    Derives .atom .closed (expr.encloseWords expr.words) expr := by
  unfold encloseWords
  split
  · exact .parentheses derivable.expression
  · rename_i isClosed
    rw [Derivable, category, ending, if_neg isClosed, if_neg isClosed] at derivable
    exact derivable

end Derivable

theorem WellFormed.derivable {expr : Expr} (wellFormed : expr.WellFormed) : expr.Derivable := by
  induction expr with
  | int value =>
    obtain ⟨nonneg, short⟩ := wellFormed
    have derived : Derives .atom .closed [.number (decimal value)] (.int value.natAbs) :=
      .numeral (readNumeral?_decimal nonneg short).2
    rw [Int.natAbs_of_nonneg nonneg] at derived
    exact derived
  | bool value =>
    cases value with
    | false => exact .falsehood
    | true => exact .truth
  | var name => exact .reference name
  | nil => exact .emptyList
  | binary op left right ihLeft ihRight =>
    exact .parentheses
      (Derives.ofAtoms op (ihLeft wellFormed.1).operand (ihRight wellFormed.2).operand).toExpression
  | cond test consequent alternative ihTest ihConsequent ihAlternative =>
    exact .conditional (ihTest wellFormed.1).expression (ihConsequent wellFormed.2.1).expression
      (ihAlternative wellFormed.2.2).expression
  | letIn name bound body ihBound ihBody =>
    have derived := @Derives.definition _ _ [] _ _ _ _ name
      (ihBound wellFormed.2.1).expression (ihBody wellFormed.2.2).expression
    exact derived
  | lambda param body ihBody =>
    have derived := Derives.function (List.cons_ne_nil param []) (ihBody wellFormed.2).expression
    exact derived
  | apply function argument ihFunction ihArgument =>
    have derived := Derives.apply (.single (ihFunction wellFormed.1).operand)
      (ihArgument wellFormed.2).operand
    exact .parentheses (derived.ofApplication _)
  | unknown | embedded => exact wellFormed.elim

end Expr

/-! ## The text of a printed expression -/

private theorem valid_number_decimal {value : Int} (nonneg : 0 ≤ value) :
    (Lexeme.number (decimal value)).Valid := by
  have digits := decimal_of_nonneg nonneg
  cases spelled : Nat.toDigits 10 value.natAbs with
  | nil => exact (Nat.toDigits_ne_nil spelled).elim
  | cons first rest =>
    have basic : ∀ c ∈ first :: rest, isDigit c = true := by
      intro c member
      exact isDigit_of_mem_toDigits (spelled ▸ member)
    exact ⟨first, rest, digits.trans spelled, basic first List.mem_cons_self,
      fun c member => basic c (List.mem_cons_of_mem _ member)⟩

private theorem Spells.enclose {text : String} {words : List Lexeme}
    (spelled : Spells text.toList words) (operand : Expr) :
    Spells (operand.enclose text).toList (operand.encloseWords words) := by
  unfold Expr.enclose Expr.encloseWords
  split
  · have shape : ("(" ++ text ++ ")").toList = '(' :: (text.toList ++ [')']) := by simp
    rw [shape]
    exact spelled.parentheses
  · exact spelled

/-- A well-formed expression has a text, which is read as its words. -/
theorem Expr.WellFormed.text {expr : Expr} (wellFormed : expr.WellFormed) :
    ∃ text, expr.text? = some text ∧ Spells text.toList expr.words := by
  induction expr with
  | int value =>
    obtain ⟨nonneg, short⟩ := wellFormed
    exact ⟨decimal value, (readNumeral?_decimal nonneg short).1,
      .number (valid_number_decimal nonneg)⟩
  | bool value =>
    refine ⟨boolText value, rfl, ?_⟩
    cases value with
    | false => exact .keyword .falseWord
    | true => exact .keyword .trueWord
  | var name => exact ⟨name, rfl, .ident wellFormed⟩
  | nil => exact ⟨"[]", rfl, .brackets⟩
  | binary op left right ihLeft ihRight =>
    obtain ⟨leftText, leftPrinted, leftSpelled⟩ := ihLeft wellFormed.1
    obtain ⟨rightText, rightPrinted, rightSpelled⟩ := ihRight wellFormed.2
    refine ⟨_, by rw [text?, leftPrinted, rightPrinted]; rfl, ?_⟩
    have spelled := (leftSpelled.enclose left).space
      ((Spells.operator op).space (rightSpelled.enclose right))
    simpa [words] using spelled.parentheses
  | cond test consequent alternative ihTest ihConsequent ihAlternative =>
    obtain ⟨testText, testPrinted, testSpelled⟩ := ihTest wellFormed.1
    obtain ⟨consequentText, consequentPrinted, consequentSpelled⟩ := ihConsequent wellFormed.2.1
    obtain ⟨alternativeText, alternativePrinted, alternativeSpelled⟩ := ihAlternative wellFormed.2.2
    refine ⟨_, by rw [text?, testPrinted, consequentPrinted, alternativePrinted]; rfl, ?_⟩
    have spelled := (Spells.keyword .ifWord).space (testSpelled.space
      ((Spells.keyword .thenWord).space (consequentSpelled.space
        ((Spells.keyword .elseWord).space alternativeSpelled))))
    simpa [words, Keyword.text] using spelled
  | letIn name bound body ihBound ihBody =>
    obtain ⟨boundText, boundPrinted, boundSpelled⟩ := ihBound wellFormed.2.1
    obtain ⟨bodyText, bodyPrinted, bodySpelled⟩ := ihBody wellFormed.2.2
    refine ⟨_, by rw [text?, boundPrinted, bodyPrinted]; rfl, ?_⟩
    have spelled := (Spells.keyword .letWord).space ((Spells.ident wellFormed.1).space
      (Spells.equals.space (boundSpelled.space ((Spells.keyword .inWord).space bodySpelled))))
    simpa [words, Keyword.text] using spelled
  | lambda param body ihBody =>
    obtain ⟨bodyText, bodyPrinted, bodySpelled⟩ := ihBody wellFormed.2
    refine ⟨_, by rw [text?, bodyPrinted]; rfl, ?_⟩
    have spelled := (Spells.ident wellFormed.1).space (Spells.arrow.space bodySpelled)
    simpa [words] using spelled.backslash
  | apply function argument ihFunction ihArgument =>
    obtain ⟨functionText, functionPrinted, functionSpelled⟩ := ihFunction wellFormed.1
    obtain ⟨argumentText, argumentPrinted, argumentSpelled⟩ := ihArgument wellFormed.2
    refine ⟨_, by rw [text?, functionPrinted, argumentPrinted]; rfl, ?_⟩
    have spelled := (functionSpelled.enclose function).space
      (argumentSpelled.enclose argument)
    simpa [words] using spelled.parentheses
  | unknown | embedded => exact wellFormed.elim

/-- A text that is read as the words of a program is parsed. -/
theorem parse_of_reads {text : String} {words : List Lexeme} {expr : Expr}
    (reads : Reads text.toList [] words) (denotes : Denotes words expr) :
    parse text = .ok expr := by
  obtain ⟨scanned, sound⟩ := reads.ofString
  have all : (Stream.ofString text).words = words := scanned
  obtain ⟨target, success⟩ := denotes.parse all sound
  rw [parse, success]

theorem parse_of_spells {text : String} {words : List Lexeme} {expr : Expr}
    (spelled : Spells text.toList words) (denotes : Denotes words expr) :
    parse text = .ok expr :=
  parse_of_reads (spelled [] .nil) denotes

/-- Parsing gives well-formed expressions only, and gives back each of them from the text that it
is printed as. -/
theorem parse_inverts_printing :
    (∀ source expr, parse source = .ok expr → expr.WellFormed) ∧
      ∀ expr : Expr, expr.WellFormed →
        ∃ text, expr.text? = some text ∧ parse text = .ok expr := by
  refine ⟨fun _ _ => wellFormed_of_parse, fun expr wellFormed => ?_⟩
  obtain ⟨text, printed, spelled⟩ := wellFormed.text
  exact ⟨text, printed, parse_of_spells spelled ⟨_, wellFormed.derivable.expression⟩⟩

/-- A binding form is enclosed as an operand and left open as a body. -/
theorem parse_inverts_printing_of_open_operand :
    let expr : Expr := .letIn "f'" (.lambda "x" (.cond (.var "x") (.int 0) (.int 12)))
      (.binary .cons (.apply (.var "f'") (.lambda "_" .nil)) (.lambda "y" (.bool true)))
    expr.WellFormed ∧ ∃ text, expr.text? = some text ∧ parse text = .ok expr := by
  intro expr
  have wellFormed : expr.WellFormed := by
    have first : IsName "f'" := ⟨⟨'f', ['\''], rfl, rfl, List.all_eq_true.mp rfl⟩, by decide⟩
    have second : IsName "x" := ⟨⟨'x', [], rfl, rfl, List.all_eq_true.mp rfl⟩, by decide⟩
    have third : IsName "_" := ⟨⟨'_', [], rfl, rfl, List.all_eq_true.mp rfl⟩, by decide⟩
    have fourth : IsName "y" := ⟨⟨'y', [], rfl, rfl, List.all_eq_true.mp rfl⟩, by decide⟩
    exact ⟨first, ⟨second, second, ⟨by decide, by decide⟩, ⟨by decide, by decide⟩⟩,
      ⟨first, third, trivial⟩, fourth, trivial⟩
  exact ⟨wellFormed, parse_inverts_printing.2 expr wellFormed⟩

end MiniFun
