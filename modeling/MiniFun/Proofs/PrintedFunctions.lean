import MiniFun.Proofs.OneLineTexts

/-! # Functions are printed as their source

A function is shown as a text in brackets. Every function that a program without bindings of a host
program can make is written in a text that was parsed, so that its parameter and its body make an
expression that is parsed back from its text. What stands in the brackets is then a program for the
function: in the environment that the function has captured, its value is the function again.
-/

namespace MiniFun

def evaluateSource (limit : Nat) (env : Env) (source : String) : Computation Value := do
  evaluate limit env (← .ofExcept (parse source))

theorem Interpreter.evaluateText_eq_evaluateSource (interpreter : Interpreter) (source : String) :
    interpreter.evaluateText source = evaluateSource nestingLimit interpreter.env source := rfl

theorem evaluateSource_of_ok {source : String} {expr : Expr} (parsed : parse source = .ok expr)
    (limit : Nat) (env : Env) : evaluateSource limit env source = evaluate limit env expr := by
  rw [evaluateSource, parsed]
  rfl

/-- A function is shown as its expression in brackets. -/
private theorem Value.text?_closure {param : String} {body : Expr} {text : String}
    (printed : (Expr.lambda param body).text? = some text) (captured : Env) :
    (closure captured param body).text? = some ("<<closure: " ++ text ++ ">>") := by
  simp only [Expr.text?, Option.bind_eq_bind, Option.bind_eq_some_iff, Option.pure_def,
    Option.some.injEq] at printed
  obtain ⟨bodyText, bodyPrinted, rfl⟩ := printed
  simp [text?, bodyPrinted, ← String.toList_inj]

/-- The functions within reach of a result are written like functions of a program. -/
theorem wellFormed_of_leads {limit : Nat} {program : Expr} {store target : Store} {value : Value}
    (wellFormed : program.WellFormed)
    (success : evaluate limit Interpreter.standard.env program store = .ok value target)
    {captured : Env} {param : String} {body : Expr}
    (leads : Leads target (.value value) (.value (.closure captured param body))) :
    (Expr.lambda param body).WellFormed := by
  have permitted : Throughout store linePolicy.Permits (.env Interpreter.standard.env) :=
    linePolicy.permits_env .standard (List.forall_mem_nil _)
  exact linePolicy_tolerant.permits_of_evaluate permitted wellFormed success _ leads _ _ _ rfl

/-- What is shown for a function is its source, whichever program made the function and however
deep its evaluation may go. The text in the brackets is parsed to the expression of the function.
Evaluated where the function was made, it gives the function. -/
theorem printed_functions_are_their_source (limit : Nat) (source : String) (store : Store)
    {value : Value} {target : Store}
    (success : evaluateSource limit Interpreter.standard.env source store = .ok value target) :
    ∀ captured param body, Leads target (.value value) (.value (.closure captured param body)) →
      ∃ text, (Value.closure captured param body).text? = some ("<<closure: " ++ text ++ ">>") ∧
        parse text = .ok (.lambda param body) ∧
        ∀ limit later, evaluateSource (limit + 1) captured text later =
          .ok (.closure captured param body) later := by
  intro captured param body leads
  cases parsed : parse source with
  | error failure =>
    rw [evaluateSource, parsed] at success
    cases success
  | ok program =>
    rw [evaluateSource_of_ok parsed] at success
    have wellFormed := wellFormed_of_leads (wellFormed_of_parse parsed) success leads
    obtain ⟨text, printed, spelled⟩ := wellFormed.text
    have readBack : parse text = .ok (.lambda param body) :=
      parse_of_spells spelled ⟨_, wellFormed.derivable.expression⟩
    refine ⟨text, Value.text?_closure printed captured, readBack, ?_⟩
    intro limit later
    rw [evaluateSource_of_ok readBack]
    rfl

/-- A function that calls itself is behind a pair. It has captured the frame that holds it. -/
theorem printed_functions_are_their_source_of_recursive :
    let source := "let f = \\n -> if n <= 1 then 1 else n * f (n - 1) in f : []"
    let body : Expr := .cond (.binary .lessEqual (.var "n") (.int 1)) (.int 1)
      (.binary .times (.var "n") (.apply (.var "f") (.binary .minus (.var "n") (.int 1))))
    ∃ value target captured,
      Interpreter.standard.evaluateText source ⟨#[]⟩ = .ok value target ∧
      Leads target (.value value) (.value (.closure captured "n" body)) ∧
      ∃ text, (Value.closure captured "n" body).text? = some ("<<closure: " ++ text ++ ">>") ∧
        parse text = .ok (.lambda "n" body) ∧
        ∀ limit later, evaluateSource (limit + 1) captured text later =
          .ok (.closure captured "n" body) later := by
  intro source body
  have parsed : parse source = .ok (.letIn "f" (.lambda "n" body)
      (.binary .cons (.var "f") .nil)) := parse_of_toOption (by decide +kernel)
  have success : Interpreter.standard.evaluateText source ⟨#[]⟩ =
      .ok (.pair (.closure (.recursive "f" 0 Interpreter.standard.env) "n" body) .nil)
        ⟨#[some (.closure (.recursive "f" 0 Interpreter.standard.env) "n" body)]⟩ := by
    rw [Interpreter.evaluateText_of_ok _ parsed]
    rfl
  refine ⟨_, _, _, success, .single (.head ..), ?_⟩
  rw [Interpreter.evaluateText_eq_evaluateSource] at success
  exact printed_functions_are_their_source _ _ _ success _ _ _ (.single (.head ..))

end MiniFun
