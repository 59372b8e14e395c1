import MiniFun.Proofs.RoundTrip
import MiniFun.Proofs.SeparateLines

/-! # Programs inside of programs

A program that is put between delimiters denotes there what it denotes alone. A line feed behind it
ends its last comment, so that its words are read as they are without the context. The grammar has
one category for all that may stand between delimiters, and every program is of that category; which
rules it was derived by does not matter to the rules around it.

An operand is a phrase of a tighter category. A program that begins with the opening word of a
binding form is nothing but that form, and a binding form may be the last operand of every operator.
-/

namespace MiniFun

open Text

/-! ## Reading programs between delimiters -/

/-- The characters are read as the words whatever follows them. -/
def Delimited (chars : List Char) (words : List Lexeme) : Prop :=
  ∀ rest, Reads chars rest words

namespace Delimited

theorem append {front back : List Char} {first second : List Lexeme}
    (before : Delimited front first) (after : Delimited back second) :
    Delimited (front ++ back) (first ++ second) :=
  fun rest => .append (before (back ++ rest)) (after rest)

/-- What stands between delimiters may be followed by characters that need an end of the input. -/
theorem reads {front back : List Char} {first second : List Lexeme}
    (before : Delimited front first) (after : Reads back [] second) :
    Reads (front ++ back) [] (first ++ second) :=
  .append (before (back ++ [])) after

/-- Parts that are delimited each can be put one behind the other. -/
theorem flatMap {α : Type} {items : List α} {chars : α → List Char} {words : α → List Lexeme}
    (each : ∀ item ∈ items, Delimited (chars item) (words item)) :
    Delimited (items.flatMap chars) (items.flatMap words) := by
  induction items with
  | nil => exact fun _ _ => ⟨rfl, rfl⟩
  | cons item items ih =>
    rw [List.forall_mem_cons] at each
    rw [List.flatMap_cons, List.flatMap_cons]
    exact each.1.append (ih each.2)

theorem space : Delimited [' '] [] := fun rest => .blank rfl rest

/-- A blank ends the words in front of it. -/
theorem spaced {chars : List Char} {words : List Lexeme} (spelled : Spells chars words) :
    Delimited (chars ++ [' ']) words := by
  intro rest
  have ended := Reads.append (spelled (' ' :: rest) (.cons rfl rest)) (.blank rfl rest)
  rwa [List.append_nil] at ended

theorem leftParen : Delimited ['('] [.leftParen] := fun _ => .word rfl rfl rfl

theorem rightParen : Delimited [')'] [.rightParen] := fun _ => .word rfl rfl rfl

theorem leftBracket : Delimited ['['] [.leftBracket] := fun _ => .word rfl rfl rfl

theorem rightBracket : Delimited [']'] [.rightBracket] := fun _ => .word rfl rfl rfl

theorem comma : Delimited [','] [.comma] := fun _ => .word rfl rfl rfl

theorem backslash : Delimited ['\\'] [.backslash] := fun _ => .word rfl rfl rfl

end Delimited

private theorem Scan.words_shift (offset : Nat) (scan : Scan) :
    (scan.shift offset).words = scan.words := by
  simp [words, shift, Token.shift, Function.comp_def]

/-- Where a text without a fault begins does not matter to its words. -/
private theorem Scan.ofCharsFrom_ofString {source : String} (sound : (ofString source).fault = none)
    (position : Nat) :
    (ofCharsFrom position 0 source.toList).words = (ofString source).words ∧
      (ofCharsFrom position 0 source.toList).fault = none := by
  have moved := ofCharsFrom_add position 0 0 source.toList
  rw [Nat.zero_add] at moved
  rw [moved, words_shift]
  refine ⟨rfl, ?_⟩
  change (ofString source).fault.map _ = none
  rw [sound, Option.map_none]

/-- A text without a fault is read up to the end of the input. -/
theorem Reads.last {source : String} (sound : (Scan.ofString source).fault = none) :
    Reads source.toList [] (Scan.ofString source).words := by
  intro position
  obtain ⟨words, fault⟩ := Scan.ofCharsFrom_ofString sound position
  rw [List.append_nil, words, fault]
  exact ⟨(List.append_nil _).symm, rfl⟩

/-- A line feed ends a text without a fault, its last comment included. -/
theorem Delimited.line {source : String} (sound : (Scan.ofString source).fault = none) :
    Delimited (source.toList ++ ['\n']) (Scan.ofString source).words := by
  intro rest position
  obtain ⟨words, fault⟩ := Scan.ofCharsFrom_ofString sound position
  rw [List.append_assoc, List.singleton_append, Scan.ofCharsFrom_append_newline, Scan.followedBy,
    fault, ← words, List.length_append, List.length_singleton, Nat.add_assoc]
  exact ⟨List.map_append, rfl⟩

/-- Parentheses around a text. -/
theorem Delimited.parentheses {source : String} (sound : (Scan.ofString source).fault = none) :
    Delimited (['('] ++ (source.toList ++ ['\n'] ++ [')']))
      (.leftParen :: ((Scan.ofString source).words ++ [.rightParen])) :=
  leftParen.append ((line sound).append rightParen)

/-! ## Binding forms as operands -/

/-- No closed phrase begins with the opening word of a binding form. -/
private theorem Derives.not_opened {category : Category} {words : List Lexeme} {expr : Expr}
    (derived : Derives category .closed words expr) (noItems : category ≠ .items)
    (behind : List Lexeme) : BindingForm.openedBy? (words ++ behind).head? = none := by
  apply BindingForm.openedBy?_of_startsAtom
  obtain ⟨word, rest, rfl, starts⟩ := derived.first_word
  exact starts.resolve_right (by simp [noItems])

/-- A phrase that begins with the opening word of a binding form is this form as a whole. -/
private theorem Derives.bindingForm {category : Category} {ending : Ending} {words : List Lexeme}
    {expr : Expr} (derived : Derives category ending words expr) (noItems : category ≠ .items)
    (opened : (BindingForm.openedBy? words.head?).isSome = true) :
    Derives .application .trailing words expr := by
  induction derived with
  | numeral | truth | falsehood | reference | parentheses | emptyList | list => cases opened
  | lastItem | moreItems => exact (noItems rfl).elim
  | function nonempty body => exact .function nonempty body
  | definition name bound body => exact .definition name bound body
  | conditional test consequent alternative => exact .conditional test consequent alternative
  | @operand level _ _ _ _ ih => exact ih level.operand_ne_items opened
  | single atom =>
    have closed := atom.not_opened nofun []
    rw [List.append_nil] at closed
    rw [closed] at opened
    cases opened
  | apply front => rw [front.not_opened nofun] at opened; cases opened
  | toLeft _ _ front => rw [front.not_opened nofun] at opened; cases opened
  | @toRight level _ _ _ _ _ _ _ _ front | @once level _ _ _ _ _ _ _ _ front =>
    rw [front.not_opened level.operand_ne_items] at opened
    cases opened

/-- An application without operators is an operand of every level. -/
private theorem Derives.toOperand {ending : Ending} {words : List Lexeme} {expr : Expr}
    (derived : Derives .application ending words expr) (level : Level) :
    Derives level.operand ending words expr := by
  cases level with
  | product => exact derived
  | _ => exact derived.ofApplication _

/-- A binding form is the last operand of every operator, however its level combines. -/
private theorem Derives.ofAtomAndForm {front back : List Lexeme} {left right : Expr} (op : Operator)
    (first : Derives .atom .closed front left)
    (second : Derives .application .trailing back right) :
    Derives (.operations op.level) .trailing (front ++ .operator op :: back)
      (.binary op left right) := by
  cases assoc : op.level.associativity with
  | left => exact .toLeft assoc rfl (.operand (first.ofAtom _)) (second.toOperand _)
  | right => exact .toRight assoc rfl (first.ofAtom _) (.operand (second.toOperand _))
  | none => exact .once assoc rfl (first.ofAtom _) (second.toOperand _)

/-! ## Texts between delimiters -/

section

variable {first second third : String} {left right last : Expr}
  (parsedFirst : parse first = .ok left)
include parsedFirst

theorem parse_parentheses : parse ("(" ++ first ++ "\n)") = .ok left := by
  obtain ⟨⟨_, derived⟩, sound⟩ := denotes_of_parse parsedFirst
  have text := Delimited.parentheses sound []
  refine parse_of_reads ?_ ⟨_, (Derives.single (.parentheses derived)).ofApplication _⟩
  simpa using text

theorem parse_function {name : String} (isName : IsName name) :
    parse ("\\" ++ name ++ " -> " ++ first) = .ok (.lambda name left) := by
  obtain ⟨⟨_, derived⟩, sound⟩ := denotes_of_parse parsedFirst
  have text := (Delimited.backslash.append ((Delimited.spaced (.ident isName)).append
    (.spaced .arrow))).reads (.last sound)
  have function := Derives.function (List.cons_ne_nil name []) derived
  refine parse_of_reads ?_ ⟨_, function.ofApplication _⟩
  simpa using text

variable (parsedSecond : parse second = .ok right)
include parsedSecond

theorem parse_definition {name : String} (isName : IsName name) :
    parse ("let " ++ name ++ " = " ++ first ++ "\nin " ++ second) =
      .ok (.letIn name left right) := by
  obtain ⟨⟨_, bound⟩, boundSound⟩ := denotes_of_parse parsedFirst
  obtain ⟨⟨_, body⟩, bodySound⟩ := denotes_of_parse parsedSecond
  have opening := (Delimited.spaced (.keyword .letWord)).append
    ((Delimited.spaced (.ident isName)).append (.spaced .equals))
  have text := (opening.append ((Delimited.line boundSound).append
    (.spaced (.keyword .inWord)))).reads (.last bodySound)
  have derived := @Derives.definition _ _ [] _ _ _ _ name bound body
  refine parse_of_reads ?_ ⟨_, derived.ofApplication _⟩
  simpa [Keyword.text] using text

theorem parse_operation (op : Operator) :
    parse ("(" ++ first ++ "\n) " ++ op.symbol ++ " (" ++ second ++ "\n)") =
      .ok (.binary op left right) := by
  obtain ⟨⟨_, derivedLeft⟩, leftSound⟩ := denotes_of_parse parsedFirst
  obtain ⟨⟨_, derivedRight⟩, rightSound⟩ := denotes_of_parse parsedSecond
  have text := ((Delimited.parentheses leftSound).append (Delimited.space.append
    ((Delimited.spaced (.operator op)).append (.parentheses rightSound)))) []
  have derived := Derives.ofAtoms op (.parentheses derivedLeft) (.parentheses derivedRight)
  refine parse_of_reads ?_ ⟨_, derived.toExpression⟩
  simpa using text

theorem parse_application :
    parse ("(" ++ first ++ "\n) (" ++ second ++ "\n)") = .ok (.apply left right) := by
  obtain ⟨⟨_, function⟩, functionSound⟩ := denotes_of_parse parsedFirst
  obtain ⟨⟨_, argument⟩, argumentSound⟩ := denotes_of_parse parsedSecond
  have text := ((Delimited.parentheses functionSound).append
    (Delimited.space.append (.parentheses argumentSound))) []
  have derived := Derives.apply (.single (.parentheses function)) (.parentheses argument)
  refine parse_of_reads ?_ ⟨_, derived.ofApplication _⟩
  simpa using text

theorem parse_list :
    parse ("[" ++ first ++ "\n," ++ second ++ "\n]") =
      .ok (.binary .cons left (.binary .cons right .nil)) := by
  obtain ⟨⟨_, derivedFirst⟩, firstSound⟩ := denotes_of_parse parsedFirst
  obtain ⟨⟨_, derivedSecond⟩, secondSound⟩ := denotes_of_parse parsedSecond
  have text := (Delimited.leftBracket.append ((Delimited.line firstSound).append
    (Delimited.comma.append ((Delimited.line secondSound).append .rightBracket)))) []
  have derived := Derives.list (.moreItems derivedFirst (.lastItem derivedSecond))
  refine parse_of_reads ?_ ⟨_, (Derives.single derived).ofApplication _⟩
  simpa using text

/-- The second text is taken whole, since it begins with a binding form. -/
private theorem parse_operation_of_opened (op : Operator)
    (opened : (BindingForm.openedBy? (Scan.ofString second).words.head?).isSome = true) :
    parse ("(" ++ first ++ "\n) " ++ op.symbol ++ " " ++ second) = .ok (.binary op left right) := by
  obtain ⟨⟨_, derivedLeft⟩, leftSound⟩ := denotes_of_parse parsedFirst
  obtain ⟨⟨_, derivedRight⟩, rightSound⟩ := denotes_of_parse parsedSecond
  have text := ((Delimited.parentheses leftSound).append (Delimited.space.append
    (.spaced (.operator op)))).reads (.last rightSound)
  have form := derivedRight.bindingForm nofun opened
  have derived := Derives.ofAtomAndForm op (.parentheses derivedLeft) form
  refine parse_of_reads ?_ ⟨_, derived.toExpression⟩
  simpa using text

theorem parse_conditional (parsedThird : parse third = .ok last) :
    parse ("if " ++ first ++ "\nthen " ++ second ++ "\nelse " ++ third) =
      .ok (.cond left right last) := by
  obtain ⟨⟨_, test⟩, testSound⟩ := denotes_of_parse parsedFirst
  obtain ⟨⟨_, consequent⟩, consequentSound⟩ := denotes_of_parse parsedSecond
  obtain ⟨⟨_, alternative⟩, alternativeSound⟩ := denotes_of_parse parsedThird
  have testText := (Delimited.spaced (.keyword .ifWord)).append (.line testSound)
  have consequentText := (Delimited.spaced (.keyword .thenWord)).append (.line consequentSound)
  have text := (testText.append (consequentText.append (.spaced (.keyword .elseWord)))).reads
    (.last alternativeSound)
  have derived := Derives.conditional test consequent alternative
  refine parse_of_reads ?_ ⟨_, derived.ofApplication _⟩
  simpa [Keyword.text] using text

end

/-- Programs between delimiters denote there what they denote alone: in parentheses, in each binding
form, as operands, as function and argument, and as items of a list. A text that begins with a
binding form needs no parentheses to be the last operand. -/
theorem parsing_is_compositional {first second third : String} {left right last : Expr}
    (parsedFirst : parse first = .ok left) (parsedSecond : parse second = .ok right)
    (parsedThird : parse third = .ok last) {name : String} (isName : IsName name) (op : Operator) :
    parse ("(" ++ first ++ "\n)") = .ok left ∧
    parse ("if " ++ first ++ "\nthen " ++ second ++ "\nelse " ++ third) =
      .ok (.cond left right last) ∧
    parse ("let " ++ name ++ " = " ++ first ++ "\nin " ++ second) = .ok (.letIn name left right) ∧
    parse ("\\" ++ name ++ " -> " ++ first) = .ok (.lambda name left) ∧
    parse ("(" ++ first ++ "\n) " ++ op.symbol ++ " (" ++ second ++ "\n)") =
      .ok (.binary op left right) ∧
    parse ("(" ++ first ++ "\n) (" ++ second ++ "\n)") = .ok (.apply left right) ∧
    parse ("[" ++ first ++ "\n," ++ second ++ "\n]") =
      .ok (.binary .cons left (.binary .cons right .nil)) ∧
    ((Scan.ofString second).tokens.head?.map Token.lexeme ∈
        [some .backslash, some (.keyword .letWord), some (.keyword .ifWord)] →
      parse ("(" ++ first ++ "\n) " ++ op.symbol ++ " " ++ second) =
        .ok (.binary op left right)) := by
  refine ⟨parse_parentheses parsedFirst, parse_conditional parsedFirst parsedSecond parsedThird,
    parse_definition parsedFirst parsedSecond isName, parse_function parsedFirst isName,
    parse_operation parsedFirst parsedSecond op, parse_application parsedFirst parsedSecond,
    parse_list parsedFirst parsedSecond, fun begins => ?_⟩
  refine parse_operation_of_opened parsedFirst parsedSecond op ?_
  rw [Scan.words, List.head?_map]
  generalize (Scan.ofString second).tokens.head?.map Token.lexeme = word at begins
  simp only [List.mem_cons, List.not_mem_nil, or_false] at begins
  rcases begins with rfl | rfl | rfl <;> rfl

/-- The first program ends with a comment, which would take the closing parenthesis if it stood on
the same line. The second one is a function that takes the comparison behind it. -/
theorem parsing_is_compositional_behind_comment :
    let left : Expr := .apply (.var "f") (.var "x")
    let right : Expr := .lambda "y" (.binary .less (.var "y") (.int 2))
    parse "f x -- )" = .ok left ∧ parse "\\y -> y < 2" = .ok right ∧ parse "[]" = .ok .nil ∧
      IsName "in'" ∧
      (Scan.ofString "\\y -> y < 2").tokens.head?.map Token.lexeme = some .backslash ∧
      parse "(f x -- )\n)" = .ok left ∧
      parse "if f x -- )\nthen \\y -> y < 2\nelse []" = .ok (.cond left right .nil) ∧
      parse "let in' = f x -- )\nin \\y -> y < 2" = .ok (.letIn "in'" left right) ∧
      parse "(f x -- )\n) <= \\y -> y < 2" = .ok (.binary .lessEqual left right) := by
  intro left right
  have parsedFirst : parse "f x -- )" = .ok left := parse_of_toOption (by decide +kernel)
  have parsedSecond : parse "\\y -> y < 2" = .ok right := parse_of_toOption (by decide +kernel)
  have parsedThird : parse "[]" = .ok .nil := parse_of_toOption (by decide +kernel)
  have isName : IsName "in'" :=
    ⟨⟨'i', ['n', '\''], rfl, rfl, List.all_eq_true.mp rfl⟩, by decide⟩
  have begins : (Scan.ofString "\\y -> y < 2").tokens.head?.map Token.lexeme =
      some .backslash := by decide +kernel
  obtain ⟨parentheses, conditional, definition, -, -, -, -, operand⟩ :=
    parsing_is_compositional parsedFirst parsedSecond parsedThird isName .lessEqual
  exact ⟨parsedFirst, parsedSecond, parsedThird, isName, begins, parentheses, conditional,
    definition, operand (by simp [begins])⟩

end MiniFun
