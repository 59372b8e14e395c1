import MiniFun.Interpreter
import MiniFun.Proofs.Territory

/-! # Errors as values

Running a program is evaluating it, with an error turned into a value that carries its message. No
other step makes such a value: as long as the host program binds none, neither directly nor inside
of another value, what evaluation gives back holds none at any depth. An error value therefore says
that evaluation failed, and how. Limits of the interpreter are passed on as they are.
-/

namespace MiniFun

/-! ## Runs and evaluations -/

def settled : EStateM.Result Failure Store Value → EStateM.Result Failure Store Value
  | .error (.error cause) target => .ok (.failed cause.message) target
  | result => result

namespace Interpreter

variable (interpreter : Interpreter) (store : Store)

theorem run_eq_settled (expr : Expr) :
    interpreter.run expr store = settled (interpreter.evaluate expr store) := by
  cases ran : interpreter.evaluate expr store with
  | ok value target =>
    have attempted : interpreter.attempt expr store = .ok (.value value) target := by
      rw [attempt, Computation.recover, map_of_ok ran]
    exact map_of_ok attempted
  | error failure target =>
    cases failure with
    | error cause =>
      have attempted : interpreter.attempt expr store = .ok (.failed cause) target := by
        rw [attempt, Computation.recover, map_of_error ran]
        rfl
      exact map_of_ok attempted
    | _ =>
      refine map_of_error ?_
      rw [attempt, Computation.recover, map_of_error ran]

theorem evaluateText_of_ok {source : String} {expr : Expr} (parsed : parse source = .ok expr) :
    interpreter.evaluateText source = interpreter.evaluate expr := by
  rw [evaluateText, parsed]
  rfl

theorem evaluateText_of_error {source : String} {failure : Failure}
    (failed : parse source = .error failure) :
    interpreter.evaluateText source store = .error failure store := by
  rw [evaluateText, failed]
  rfl

theorem runText_eq_settled (source : String) :
    interpreter.runText source store = settled (interpreter.evaluateText source store) := by
  cases parsed : parse source with
  | ok expr =>
    rw [interpreter.evaluateText_of_ok parsed, ← interpreter.run_eq_settled, runText, attemptText,
      parsed, run]
  | error failure =>
    rw [interpreter.evaluateText_of_error store parsed, runText, attemptText, parsed]
    cases failure with
    | _ => rfl

/-- What holds of the built-in functions and of the bindings of the host program holds of the
environment that is made of them. -/
theorem env_of_bindings {good : Node → Prop} (empty : good (.env .empty))
    (builtin : ∀ function, good (.value (.primitive function)))
    (extend : ∀ {env value}, good (.env env) → good (.value value) →
      ∀ name, good (.env (env.extend name value)))
    (contents : ∀ binding ∈ interpreter.bindings, good (.value binding.2)) :
    good (.env interpreter.env) := by
  have initial : good (.env .initial) :=
    extend (extend empty (builtin .tail) "tail") (builtin .head) "head"
  exact List.foldlRecOn (motive := fun env => good (.env env)) interpreter.bindings _ initial
    fun _ behind binding member => extend behind (contents binding member) binding.1

end Interpreter

/-! ## Nodes without error values -/

def Untainted (store : Store) (node : Node) : Prop :=
  ∀ message, ¬ Leads store node (.value (.failed message))

theorem untainted_iff {store : Store} {node : Node} : Untainted store node ↔
    Throughout store (fun other => ∀ message, other ≠ .value (.failed message)) node := by
  constructor
  · rintro untainted _ leads message rfl
    exact untainted message leads
  · intro throughout message leads
    exact throughout _ leads message rfl

namespace Untainted

variable {store : Store}

theorem part {node other : Node} (untainted : Untainted store node)
    (holds : Holds store node other) : Untainted store other :=
  untainted_iff.mpr ((untainted_iff.mp untainted).part holds)

/-- A node that is no error value itself is untainted if its parts are. -/
theorem of_parts {node : Node} (plain : ∀ message, node ≠ .value (.failed message))
    (parts : ∀ other, Holds store node other → Untainted store other) : Untainted store node :=
  untainted_iff.mpr (.of_parts plain fun other holds => untainted_iff.mp (parts other holds))

theorem extend {env : Env} {value : Value} (untainted : Untainted store (.env env))
    (content : Untainted store (.value value)) (name : String) :
    Untainted store (.env (env.extend name value)) :=
  untainted_iff.mpr
    (.extend (untainted_iff.mp untainted) (untainted_iff.mp content) name nofun)

end Untainted

/-- The policy that forbids nothing. -/
def Policy.lax : Policy where
  allows _ := True
  makes _ _ := True
  raises _ := True
  allows_part _ _ := trivial
  makes_lambda _ := trivial
  raises_mistyped _ := trivial
  raises_emptyList := trivial
  raises_unknown _ := trivial
  raises_embedded _ := trivial
  raises_unfilled _ _ _ := trivial

/-- The nodes without error values are a territory, and evaluation makes no error values. -/
theorem untainted_of_evaluate {limit : Nat} {env : Env} {expr : Expr} {store target : Store}
    {value : Value} (success : evaluate limit env expr store = .ok value target)
    (untainted : Untainted store (.env env)) : Untainted target (.value value) := by
  have territory : Territory .lax store (Untainted store) :=
    ⟨⟨Untainted.part⟩, fun _ => trivial, fun _ _ => ⟨trivial, fun _ _ => trivial⟩⟩
  have keeps := keepsTerritory .lax limit territory untainted
    (⟨trivial, fun _ _ => trivial⟩ : Policy.lax.Fits store env expr)
  rw [success] at keeps
  cases keeps with
  | ok spreads inside =>
    intro message leads
    exact spreads.noFailed (spreads.territory.closed.leads inside leads) message .refl

/-! ## Error values stand for errors -/

/-- The run ends as the evaluation does, except that it gives back an error as a value. The values
that the evaluation gives back hold no error values. -/
structure GivesErrorsBack (evaluated ran : EStateM.Result Failure Store Value) : Prop where
  failed_iff : ∀ message target, ran = .ok (.failed message) target ↔
    ∃ cause, evaluated = .error (.error cause) target ∧ cause.message = message
  value : ∀ value target, evaluated = .ok value target →
    ran = .ok value target ∧ Untainted target (.value value)
  failure_iff : ∀ failure target, ran = .error failure target ↔
    evaluated = .error failure target ∧ ∀ cause, failure ≠ .error cause

theorem GivesErrorsBack.of_settled {result : EStateM.Result Failure Store Value}
    (untainted : ∀ value target, result = .ok value target → Untainted target (.value value)) :
    GivesErrorsBack result (settled result) := by
  refine ⟨fun message target => ⟨?_, ?_⟩, ?_, fun failure target => ⟨?_, ?_⟩⟩
  · intro ran
    unfold settled at ran
    split at ran
    · rename_i cause target
      cases ran
      exact ⟨cause, rfl, rfl⟩
    · exact (untainted _ target ran message .refl).elim
  · rintro ⟨cause, rfl, rfl⟩
    rfl
  · rintro value target rfl
    exact ⟨rfl, untainted value target rfl⟩
  · intro ran
    unfold settled at ran
    split at ran
    · cases ran
    · rename_i noError
      refine ⟨ran, ?_⟩
      rintro cause rfl
      exact noError cause target ran
  · rintro ⟨rfl, noError⟩
    unfold settled
    split
    · rename_i cause _ same
      cases same
      exact (noError cause rfl).elim
    · rfl

/-- If the host program binds no error values, an error value is the result of a run exactly when
evaluation fails with that message. Other values and failures are the same, and no value holds an
error value. -/
theorem runs_give_errors_back (interpreter : Interpreter) (store : Store)
    (untainted : ∀ binding ∈ interpreter.bindings, Untainted store (.value binding.2)) :
    (∀ source, GivesErrorsBack (interpreter.evaluateText source store)
      (interpreter.runText source store)) ∧
    ∀ expr, GivesErrorsBack (interpreter.evaluate expr store) (interpreter.run expr store) := by
  have inEnv : Untainted store (.env interpreter.env) :=
    interpreter.env_of_bindings (.of_parts nofun nofun) (fun _ => .of_parts nofun nofun)
      Untainted.extend untainted
  refine ⟨fun source => ?_, fun expr => ?_⟩
  · rw [interpreter.runText_eq_settled]
    refine .of_settled fun value target success => ?_
    cases parsed : parse source with
    | ok expr =>
      rw [interpreter.evaluateText_of_ok parsed] at success
      exact untainted_of_evaluate success inEnv
    | error failure =>
      rw [interpreter.evaluateText_of_error store parsed] at success
      cases success
  · rw [interpreter.run_eq_settled]
    exact .of_settled fun value target success => untainted_of_evaluate success inEnv

/-- A list and a function whose captured frame holds an integer are bound. A closing parenthesis
alone and the head of a function are errors and come back as values, and the list as it is. -/
theorem runs_give_errors_back_of_function :
    let store : Store := ⟨#[some (.int 1)]⟩
    let list : Value := .pair (.int 2) .nil
    let function : Value := .closure (.recursive "n" 0 .empty) "x" (.var "n")
    let interpreter : Interpreter := ⟨[("l", list), ("f", function)]⟩
    let applied : Expr := .apply (.var "head") (.var "f")
    (∀ binding ∈ interpreter.bindings, Untainted store (.value binding.2)) ∧
      interpreter.runText ")" store = .ok (.failed "unexpected ')' at 0") store ∧
      interpreter.run applied store = .ok (.failed "head called on non-list") store ∧
      interpreter.run (.var "l") store = .ok list store ∧ Untainted store (.value list) := by
  intro store list function interpreter applied
  have integer (value : Int) : Untainted store (.value (.int value)) := .of_parts nofun nofun
  have empty : Untainted store (.env .empty) := .of_parts nofun nofun
  have frame : Untainted store (.env (.recursive "n" 0 .empty)) := by
    refine .of_parts nofun fun other holds => ?_
    cases holds with
    | inFrame known =>
      cases known
      exact integer 1
    | behindRecursive => exact empty
  have pair : Untainted store (.value (.pair (.int 2) .nil)) := by
    refine .of_parts nofun fun other holds => ?_
    cases holds with
    | head => exact integer 2
    | tail => exact .of_parts nofun nofun
  have closure : Untainted store (.value (.closure (.recursive "n" 0 .empty) "x" (.var "n"))) := by
    refine .of_parts nofun fun other holds => ?_
    cases holds with
    | captured => exact frame
  have untainted : ∀ binding ∈ interpreter.bindings, Untainted store (.value binding.2) :=
    List.forall_mem_cons.mpr ⟨pair, List.forall_mem_singleton.mpr closure⟩
  obtain ⟨texts, exprs⟩ := runs_give_errors_back interpreter store untainted
  have parsed : parse ")" = .error (.error (.malformed (.unexpected (some ")")) (some 0))) := rfl
  have rejected := interpreter.evaluateText_of_error store parsed
  refine ⟨untainted, ((texts ")").failed_iff _ _).mpr ⟨_, rejected, ?_⟩,
    ((exprs applied).failed_iff _ _).mpr ⟨_, rfl, rfl⟩, (exprs (.var "l")).value _ _ rfl⟩
  decide +kernel

end MiniFun
