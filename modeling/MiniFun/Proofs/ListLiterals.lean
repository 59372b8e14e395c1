import MiniFun.Proofs.DelimitedContexts
import MiniFun.Proofs.EvaluationOrder

/-! # Lists that are written out

A list in brackets stands for the chain of its items in front of the empty list, and denotes the
same expression as that chain does. The items are any programs. They are evaluated from the first to
the last in the environment around the list, and their values are the items of the list.
-/

namespace MiniFun

open Text

/-- The items in brackets. A line feed behind each of them ends its last comment. -/
def bracketText (items : List String) : String :=
  "[" ++ "\n,".intercalate items ++ "\n]"

/-- The items in front of the empty list, each in parentheses. -/
def chainText (items : List String) : String :=
  String.join (items.map fun item => "(" ++ item ++ "\n) : ") ++ "[]"

section

variable {items : List (String × Expr)} (parsed : ∀ item ∈ items, parse item.1 = .ok item.2)
include parsed

private theorem items_of_parse (nonempty : items ≠ []) :
    ∃ words ending,
      Delimited (("\n,".intercalate (items.map Prod.fst)).toList ++ ['\n']) words ∧
        Derives .items ending words (.ofItems (items.map Prod.snd)) := by
  induction items with
  | nil => exact (nonempty rfl).elim
  | cons item items ih =>
    rw [List.forall_mem_cons] at parsed
    obtain ⟨⟨_, derived⟩, sound⟩ := denotes_of_parse parsed.1
    cases items with
    | nil => exact ⟨_, _, by simpa using Delimited.line sound, .lastItem derived⟩
    | cons next items =>
      obtain ⟨_, _, others, derivedOthers⟩ := ih parsed.2 (List.cons_ne_nil next items)
      refine ⟨_, _, ?_, .moreItems derived derivedOthers⟩
      have text := (Delimited.line sound).append (Delimited.comma.append others)
      simpa [String.intercalate_cons_cons] using text

theorem parse_bracketText :
    parse (bracketText (items.map Prod.fst)) = .ok (.ofItems (items.map Prod.snd)) := by
  cases items with
  | nil => exact parse_of_toOption (by decide +kernel)
  | cons item items =>
    obtain ⟨_, _, inner, derived⟩ := items_of_parse parsed (List.cons_ne_nil item items)
    have text := (Delimited.leftBracket.append (inner.append .rightBracket)) []
    refine parse_of_reads ?_ ⟨_, (Derives.single (.list derived)).ofApplication _⟩
    simpa [bracketText] using text

private theorem chain_of_parse :
    ∃ words, Delimited (chainText (items.map Prod.fst)).toList words ∧
      Derives (.operations .construction) .closed words (.ofItems (items.map Prod.snd)) := by
  induction items with
  | nil =>
    exact ⟨_, .append .leftBracket .rightBracket, (Derives.single .emptyList).ofApplication _⟩
  | cons item items ih =>
    rw [List.forall_mem_cons] at parsed
    obtain ⟨⟨_, derived⟩, sound⟩ := denotes_of_parse parsed.1
    obtain ⟨_, others, derivedOthers⟩ := ih parsed.2
    have first := (Derives.single (.parentheses derived)).ofApplication .sum
    refine ⟨_, ?_, @Derives.toRight _ .cons _ _ _ _ _ rfl rfl first derivedOthers⟩
    have text := (Delimited.parentheses sound).append (Delimited.space.append
      ((Delimited.spaced (.operator .cons)).append others))
    simpa [chainText, Operator.symbol] using text

theorem parse_chainText :
    parse (chainText (items.map Prod.fst)) = .ok (.ofItems (items.map Prod.snd)) := by
  obtain ⟨_, text, derived⟩ := chain_of_parse parsed
  exact parse_of_reads (text []) ⟨_, .operand (.operand (.operand derived))⟩

end

/-- A list in brackets denotes what the chain of its items denotes. Its items are evaluated from the
first to the last in the environment around it, and the first that fails ends the evaluation. If
there is none, then the value is the list of their values. -/
theorem list_literals_evaluate_in_order {items : List (String × Expr)}
    (parsed : ∀ item ∈ items, parse item.1 = .ok item.2) :
    let exprs := items.map Prod.snd
    parse (bracketText (items.map Prod.fst)) = .ok (.ofItems exprs) ∧
    parse (chainText (items.map Prod.fst)) = .ok (.ofItems exprs) ∧
    ∀ env limit,
      let limits := itemLimits limit exprs.length
      (evaluate (limit + 1) env (.ofItems exprs) = do
        let values ← evaluateInTurn env limits exprs
        return .ofList values) ∧
      (∀ values, (Value.ofList values).toList = .ok values) ∧
      ∀ {front item back store values middle failure target},
        exprs = front ++ item :: back →
        evaluateInTurn env limits front store = .ok values middle →
        evaluate (limit - front.length) env item middle = .error failure target →
          evaluate (limit + 1) env (.ofItems exprs) store = .error failure target := by
  intro exprs
  refine ⟨parse_bracketText parsed, parse_chainText parsed, fun env limit => ?_⟩
  have course := evaluate_ofItems env limit exprs
  refine ⟨course, Value.toList_ofList, fun {front item back _ _ _ _ _} split ran failed => ?_⟩
  have inside : front.length < exprs.length := by
    rw [split, List.length_append, List.length_cons]
    omega
  have level : (itemLimits limit exprs.length)[front.length]? = some (limit - front.length) := by
    rw [itemLimits, List.getElem?_map, List.getElem?_range inside, Option.map_some]
  rw [course]
  nth_rewrite 2 [split]
  exact evaluateInTurn_bind_of_error level ran failed

/-- The first item ends with a comment, and the second is a list. The third fails if the name in it
is no integer. -/
theorem list_literals_evaluate_in_order_behind_comment :
    let sum : Expr := .binary .plus (.var "y") (.int 1)
    let items : List (String × Expr) :=
      [("\\x -> x -- ]", .lambda "x" (.var "x")), ("[y]", .ofItems [.var "y"]), ("y + 1", sum)]
    let exprs := items.map Prod.snd
    let known : Env := .bind "y" (.int 2) .empty
    let mistyped : Env := .bind "y" .nil .empty
    let values : List Value := [.closure known "x" (.var "x"), .ofList [.int 2], .int 3]
    (∀ item ∈ items, parse item.1 = .ok item.2) ∧
    parse "[\\x -> x -- ]\n,[y]\n,y + 1\n]" = .ok (.ofItems exprs) ∧
    parse "(\\x -> x -- ]\n) : ([y]\n) : (y + 1\n) : []" = .ok (.ofItems exprs) ∧
    evaluate 5 known (.ofItems exprs) .empty = .ok (.ofList values) .empty ∧
    (Value.ofList values).toList = .ok values ∧
    evaluate 5 mistyped (.ofItems exprs) .empty =
      .error (.error (.mistyped .notIntegers)) .empty := by
  intro sum items exprs known mistyped values
  have parsed : ∀ item ∈ items, parse item.1 = .ok item.2 := by
    have first : parse "\\x -> x -- ]" = .ok (.lambda "x" (.var "x")) :=
      parse_of_toOption (by decide +kernel)
    have second : parse "[y]" = .ok (.ofItems [.var "y"]) := parse_of_toOption (by decide +kernel)
    have third : parse "y + 1" = .ok sum := parse_of_toOption (by decide +kernel)
    simp [items, first, second, third]
  obtain ⟨brackets, chain, course⟩ := list_literals_evaluate_in_order parsed
  refine ⟨parsed, brackets, chain, ?_, (course known 4).2.1 values, ?_⟩
  · exact congrFun (course known 4).1 .empty
  · have ran : evaluateInTurn mistyped (itemLimits 4 3) (exprs.take 2) .empty =
        .ok [.closure mistyped "x" (.var "x"), .ofList [.nil]] .empty := rfl
    exact (course mistyped 4).2.2 rfl ran rfl

end MiniFun
