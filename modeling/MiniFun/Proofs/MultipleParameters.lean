import MiniFun.Proofs.DelimitedContexts
import MiniFun.Proofs.EvaluationOrder

/-! # Functions of several parameters

A function of several parameters stands for functions inside of one another, and its application to
several arguments for applications inside of one another. The two are nested in opposite ways, and
meet in the middle: the first argument goes to the first parameter. Each argument is evaluated in
the environment of the call, and its value is bound in front of those before it, so that of two
parameters with one name the later one counts.
-/

namespace MiniFun

open Text

/-! ## Texts in other layouts -/

/-- The text has the words of the other one, and nothing that is no word. -/
structure LaidOutLike (source text : String) : Prop where
  words_eq : (Scan.ofString source).words = (Scan.ofString text).words
  sound : (Scan.ofString source).fault = none

/-- The text denotes the expression as it stands and in every other layout. -/
structure DenotesHowever (text : String) (expr : Expr) : Prop where
  parsed : parse text = .ok expr
  elsewhere : ∀ source, LaidOutLike source text → parse source = .ok expr

theorem DenotesHowever.of_parse {text : String} {expr : Expr} (parsed : parse text = .ok expr) :
    DenotesHowever text expr := by
  refine ⟨parsed, fun source alike => ?_⟩
  have same : (Stream.ofString source).words = (Scan.ofString text).words := alike.words_eq
  obtain ⟨target, success⟩ := (denotes_of_parse parsed).1.parse same alike.sound
  rw [parse, success]

/-! ## Parameters and arguments in a text -/

/-- The text is an atom, which denotes the expression. -/
structure IsAtom (source : String) (expr : Expr) : Prop where
  derived : Derives .atom .closed (Scan.ofString source).words expr
  sound : (Scan.ofString source).fault = none

def parameterText (params : List String) : String :=
  String.join (params.map fun param => param ++ " ")

def callText (params : List String) (body : String) (arguments : List String) : String :=
  "(\\" ++ parameterText params ++ "-> " ++ body ++ "\n)" ++
    String.join (arguments.map fun argument => " " ++ argument ++ "\n")

def definitionText (name : String) (params : List String) (bound body : String) : String :=
  "let " ++ name ++ " " ++ parameterText params ++ "= " ++ bound ++ "\nin " ++ body

/-- A function of one parameter for each of the parameters, around the body. -/
def nestedText (params : List String) (body : String) : String :=
  String.join (params.map fun param => "\\" ++ param ++ " -> ") ++ body

private theorem Delimited.parameters {params : List String}
    (names : ∀ param ∈ params, IsName param) :
    Delimited (parameterText params).toList (params.map .ident) := by
  have each := Delimited.flatMap fun param member => Delimited.spaced (.ident (names param member))
  rw [List.map_eq_flatMap]
  simpa [parameterText, List.flatMap_map] using each

private theorem Delimited.arguments {arguments : List (String × Expr)}
    (atoms : ∀ argument ∈ arguments, IsAtom argument.1 argument.2) :
    Delimited (String.join ((arguments.map Prod.fst).map fun argument =>
        " " ++ argument ++ "\n")).toList
      (arguments.flatMap fun argument => (Scan.ofString argument.1).words) := by
  have each := Delimited.flatMap fun argument member =>
    Delimited.space.append (.line (atoms argument member).sound)
  simpa [List.flatMap_map] using each

/-- Arguments behind a function are taken from the first to the last. -/
private theorem Derives.applied {front : List Lexeme} {function : Expr}
    (derived : Derives .application .closed front function) {arguments : List (String × Expr)}
    (atoms : ∀ argument ∈ arguments, IsAtom argument.1 argument.2) :
    Derives .application .closed
      (front ++ arguments.flatMap fun argument => (Scan.ofString argument.1).words)
      (function.applied (arguments.map Prod.snd)) := by
  induction arguments generalizing front function with
  | nil =>
    rw [List.flatMap_nil, List.append_nil]
    exact derived
  | cons argument arguments ih =>
    rw [List.forall_mem_cons] at atoms
    rw [List.flatMap_cons, ← List.append_assoc]
    exact ih (derived.apply atoms.1.derived) atoms.2

theorem parse_callText {params : List String} (nonempty : params ≠ [])
    (names : ∀ param ∈ params, IsName param) {body : String} {expr : Expr}
    (parsed : parse body = .ok expr) {arguments : List (String × Expr)}
    (atoms : ∀ argument ∈ arguments, IsAtom argument.1 argument.2) :
    parse (callText params body (arguments.map Prod.fst)) =
      .ok ((Expr.curried params expr).applied (arguments.map Prod.snd)) := by
  obtain ⟨⟨_, derived⟩, sound⟩ := denotes_of_parse parsed
  have head := Delimited.backslash.append ((Delimited.parameters names).append (.spaced .arrow))
  have function := Delimited.leftParen.append
    ((head.append (.line sound)).append .rightParen)
  have text := (function.append (.arguments atoms)) []
  have enclosed := Derives.parentheses ((Derives.function nonempty derived).ofApplication _)
  refine parse_of_reads ?_ ⟨_, ((Derives.single enclosed).applied atoms).ofApplication _⟩
  simpa [callText] using text

theorem parse_definitionText {params : List String} (names : ∀ param ∈ params, IsName param)
    {name bound body : String} (isName : IsName name) {boundExpr bodyExpr : Expr}
    (parsedBound : parse bound = .ok boundExpr) (parsedBody : parse body = .ok bodyExpr) :
    parse (definitionText name params bound body) =
      .ok (.letIn name (.curried params boundExpr) bodyExpr) := by
  obtain ⟨⟨_, derivedBound⟩, boundSound⟩ := denotes_of_parse parsedBound
  obtain ⟨⟨_, derivedBody⟩, bodySound⟩ := denotes_of_parse parsedBody
  have opening := (Delimited.spaced (.keyword .letWord)).append
    ((Delimited.spaced (.ident isName)).append ((Delimited.parameters names).append
      (.spaced .equals)))
  have text := (opening.append ((Delimited.line boundSound).append
    (.spaced (.keyword .inWord)))).reads (.last bodySound)
  have derived := @Derives.definition _ _ params _ _ _ _ name derivedBound derivedBody
  refine parse_of_reads ?_ ⟨_, derived.ofApplication _⟩
  simpa [definitionText, Keyword.text] using text

/-- Functions of one parameter inside of one another are the function of all parameters. -/
theorem parse_nestedText {params : List String} (names : ∀ param ∈ params, IsName param)
    {body : String} {expr : Expr} (parsed : parse body = .ok expr) :
    parse (nestedText params body) = .ok (.curried params expr) := by
  induction params with
  | nil => simpa [nestedText, Expr.curried] using parsed
  | cons param params ih =>
    rw [List.forall_mem_cons] at names
    have text : nestedText (param :: params) body =
        "\\" ++ param ++ " -> " ++ nestedText params body := by
      simp [nestedText, String.append_assoc]
    rw [text]
    exact parse_function (ih names.2) names.1

/-- A function of several parameters is bound to its arguments in order. Its application to as many
atoms and its definition under a name denote what they say in every layout, the definition the same
as that of functions of one parameter inside of one another. The application evaluates the
arguments from the first to the last in the environment around it, and ends with the first that
fails. If there is none, then it evaluates the body with the values bound to the parameters, the
last in front. A limit that the applications use up leaves nothing for the arguments. -/
theorem parameters_take_arguments_in_order {params : List String} {arguments : List (String × Expr)}
    {name body rest : String} {bodyExpr restExpr : Expr} (nonempty : params ≠ [])
    (names : ∀ param ∈ params, IsName param) (sameLength : arguments.length = params.length)
    (atoms : ∀ argument ∈ arguments, IsAtom argument.1 argument.2)
    (parsedBody : parse body = .ok bodyExpr) (isName : IsName name)
    (parsedRest : parse rest = .ok restExpr) :
    let exprs := arguments.map Prod.snd
    let call := (Expr.curried params bodyExpr).applied exprs
    DenotesHowever (callText params body (arguments.map Prod.fst)) call ∧
    DenotesHowever (definitionText name params body rest)
      (.letIn name (.curried params bodyExpr) restExpr) ∧
    DenotesHowever (definitionText name [] (nestedText params body) rest)
      (.letIn name (.curried params bodyExpr) restExpr) ∧
    ∀ env,
      (∀ limit,
        (evaluate (limit + params.length + 1) env call = do
          let values ← evaluateInTurn env (List.range' (limit + 1) params.length) exprs
          evaluate (limit + params.length) (env.extendEach (params.zip values)) bodyExpr) ∧
        ∀ {front argument back store values middle failure target},
          exprs = front ++ argument :: back →
          evaluateInTurn env (List.range' (limit + 1) params.length) front store =
            .ok values middle →
          evaluate (limit + front.length + 1) env argument middle = .error failure target →
            evaluate (limit + params.length + 1) env call store = .error failure target) ∧
      ∀ limit store, limit ≤ params.length →
        evaluate limit env call store = .error .tooDeep store := by
  intro exprs call
  have nested := parse_definitionText (List.forall_mem_nil _) isName
    (parse_nestedText names parsedBody) parsedRest
  have everyArgument : exprs.length = params.length := by rw [List.length_map, sameLength]
  refine ⟨.of_parse (parse_callText nonempty names parsedBody atoms),
    .of_parse (parse_definitionText names isName parsedBody parsedRest), .of_parse nested, ?_⟩
  intro env
  refine ⟨fun limit => ?_, fun limit store within =>
    evaluate_applied_of_limit_le env _ (everyArgument ▸ within) store⟩
  have course := evaluate_applied_curried nonempty everyArgument bodyExpr env limit
  refine ⟨course, fun {front argument back _ _ _ _ _} split ran failed => ?_⟩
  have inside : front.length < params.length := by
    rw [← everyArgument, split, List.length_append, List.length_cons]
    omega
  have level : (List.range' (limit + 1) params.length)[front.length]? =
      some (limit + front.length + 1) := by
    rw [List.getElem?_range' inside, Nat.one_mul, Nat.add_right_comm]
  rw [course, split]
  exact evaluateInTurn_bind_of_error level ran failed

/-- The first and the last parameter have one name, and the last argument is bound in front. The
second argument is a name that only one of the two environments binds. -/
theorem parameters_take_arguments_in_order_of_repeated_name :
    let arguments : List (String × Expr) :=
      [("1", .int 1), ("(y -- )\n)", .var "y"), ("[3]", .binary .cons (.int 3) .nil)]
    let bodyExpr : Expr := .binary .cons (.var "x") (.binary .cons (.var "y") .nil)
    let function := Expr.curried ["x", "y", "x"] bodyExpr
    let call := function.applied (arguments.map Prod.snd)
    (∀ argument ∈ arguments, IsAtom argument.1 argument.2) ∧
    parse "(\\x y x->x:y:[])1(y)[3]" = .ok call ∧
    parse "let f x y x = x : y : [] in f" = .ok (.letIn "f" function (.var "f")) ∧
    parse "let f = \\x -> \\y -> \\x -> x : y : [] in f" = .ok (.letIn "f" function (.var "f")) ∧
    evaluate 4 (.bind "y" (.int 2) .empty) call .empty =
      .ok (.pair (.pair (.int 3) .nil) (.pair (.int 2) .nil)) .empty ∧
    evaluate 4 .empty call .empty = .error (.error (.unbound "y" none)) .empty := by
  intro arguments bodyExpr function call
  have names : ∀ param ∈ ["x", "y", "x"], IsName param := by
    have first : IsName "x" := ⟨⟨'x', [], rfl, rfl, nofun⟩, rfl⟩
    have second : IsName "y" := ⟨⟨'y', [], rfl, rfl, nofun⟩, rfl⟩
    simp [first, second]
  have atoms : ∀ argument ∈ arguments, IsAtom argument.1 argument.2 := by
    have scannedFirst : (Scan.ofString "1").words = [.number "1"] := by decide +kernel
    have scannedSecond : (Scan.ofString "(y -- )\n)").words =
        .leftParen :: ([.ident "y"] ++ [.rightParen]) := by decide +kernel
    have scannedThird : (Scan.ofString "[3]").words =
        .leftBracket :: ([.number "3"] ++ [.rightBracket]) := by decide +kernel
    have one : Derives .atom .closed [.number "1"] (.int 1) := .numeral rfl
    have known : Derives .atom .closed [.ident "y"] (.var "y") := .reference "y"
    have three : Derives .atom .closed [.number "3"] (.int 3) := .numeral rfl
    refine List.forall_mem_cons.mpr ⟨⟨scannedFirst ▸ one, by decide +kernel⟩,
      List.forall_mem_cons.mpr ⟨⟨scannedSecond ▸ ?_, by decide +kernel⟩,
        List.forall_mem_singleton.mpr ⟨scannedThird ▸ ?_, by decide +kernel⟩⟩⟩
    · exact .parentheses ((Derives.single known).ofApplication _)
    · exact .list (.lastItem ((Derives.single three).ofApplication _))
  have parsedBody : parse "x : y : [] -- )" = .ok bodyExpr := parse_of_toOption (by decide +kernel)
  have parsedRest : parse "f" = .ok (.var "f") := parse_of_toOption (by decide +kernel)
  have isName : IsName "f" := ⟨⟨'f', [], rfl, rfl, nofun⟩, rfl⟩
  obtain ⟨called, defined, nested, course⟩ := parameters_take_arguments_in_order (by decide) names
    rfl atoms parsedBody isName parsedRest
  refine ⟨atoms, called.elsewhere _ ⟨by decide +kernel, by decide +kernel⟩,
    defined.elsewhere _ ⟨by decide +kernel, by decide +kernel⟩,
    nested.elsewhere _ ⟨by decide +kernel, by decide +kernel⟩, ?_, ?_⟩
  · exact congrFun ((course (.bind "y" (.int 2) .empty)).1 0).1 .empty
  · have ran : evaluateInTurn .empty (List.range' 1 3) [.int 1] .empty = .ok [.int 1] .empty := rfl
    exact ((course .empty).1 0).2 rfl ran rfl

end MiniFun
