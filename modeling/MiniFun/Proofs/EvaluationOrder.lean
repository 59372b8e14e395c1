import Mathlib.Data.List.Induction
import MiniFun.Evaluation
import MiniFun.Proofs.Sequencing
import MiniFun.Value.Chain

/-! # Expressions in turn

The arguments of a function of several parameters and the items of a list are evaluated from left to
right, each of them once and all of them in the environment around. `evaluateInTurn` is that course
of evaluations and nothing else. What it leaves behind is put together without any further
evaluation but that of the function's body.

Arguments are nested to the left and items to the right. The limits differ accordingly: each
argument has one level more than the one in front of it, and each item has one level less.
-/

namespace MiniFun

def Expr.applied (function : Expr) (arguments : List Expr) : Expr :=
  arguments.foldl apply function

/-- The environment with the bindings added one after the other, so that the last is foremost. -/
def Env.extendEach (env : Env) (bindings : List (String × Value)) : Env :=
  bindings.foldl (fun env binding => env.extend binding.1 binding.2) env

/-- The values of expressions, evaluated one after the other in the same environment, each within
the limit at its place. The first failure ends the course. -/
def evaluateInTurn (env : Env) (limits : List Nat) (exprs : List Expr) :
    Computation (List Value) :=
  (limits.zip exprs).mapM fun job => evaluate job.1 env job.2

private theorem evaluateInTurn_cons (env : Env) (limit : Nat) (limits : List Nat) (expr : Expr)
    (exprs : List Expr) :
    evaluateInTurn env (limit :: limits) (expr :: exprs) = (do
      let value ← evaluate limit env expr
      let values ← evaluateInTurn env limits exprs
      return value :: values) :=
  List.mapM_cons

/-- Behind a failure nothing is evaluated, neither the other expressions nor what was to come after
them. -/
theorem evaluateInTurn_bind_of_error {α : Type} {env : Env} {limit : Nat} {limits : List Nat}
    {front back : List Expr} {expr : Expr} {store middle target : Store} {values : List Value}
    {failure : Failure} {next : List Value → Computation α}
    (known : limits[front.length]? = some limit)
    (ran : evaluateInTurn env limits front store = .ok values middle)
    (failed : evaluate limit env expr middle = .error failure target) :
    (evaluateInTurn env limits (front ++ expr :: back) >>= next) store = .error failure target := by
  refine bind_of_error ?_
  induction front generalizing limits store values with
  | nil =>
    obtain ⟨-, rfl⟩ : [] = values ∧ store = middle := by
      rw [evaluateInTurn, List.zip_nil_right] at ran
      exact pure_eq_ok_iff.mp ran
    obtain ⟨others, rfl⟩ := List.head?_eq_some_iff.mp (List.head?_eq_getElem?.trans known)
    rw [List.nil_append, evaluateInTurn_cons]
    exact bind_of_error failed
  | cons first front ih =>
    cases limits with
    | nil => cases known
    | cons level limits =>
      rw [evaluateInTurn_cons] at ran
      obtain ⟨value, between, evaluated, further⟩ := bind_eq_ok_iff.mp ran
      obtain ⟨others, last, ranOthers, done⟩ := bind_eq_ok_iff.mp further
      obtain ⟨-, rfl⟩ := pure_eq_ok_iff.mp done
      rw [List.cons_append, evaluateInTurn_cons, bind_of_ok evaluated]
      exact bind_of_error (ih (by simpa using known) ranOthers)

/-! ## Arguments -/

/-- An application whose function is known to be a closure, wherever the closure was made. -/
private theorem evaluate_apply_of_closure {env : Env} {limit : Nat} {function : Expr}
    {front : Computation Env} {param : String} {body : Expr}
    (made : evaluate (limit + 1) env function = (do
      let captured ← front
      return .closure captured param body)) (argument : Expr) :
    evaluate (limit + 2) env (.apply function argument) = (do
      let captured ← front
      let value ← evaluate (limit + 1) env argument
      evaluate (limit + 1) (captured.extend param value) body) := by
  rw [evaluate, made]
  simp only [bind_assoc, pure_bind]
  rfl

/-- A function of some parameters takes as many arguments. Each call but the last gives the function
of the other parameters, without an evaluation of its own. -/
theorem evaluate_applied {env : Env} {limit : Nat} {function : Expr} {front : Computation Env}
    {param : String} {params : List String} {body : Expr}
    (made : evaluate (limit + 1) env function = (do
      let captured ← front
      return .closure captured param (.curried params body)))
    (argument : Expr) {arguments : List Expr} (sameLength : arguments.length = params.length) :
    evaluate (limit + arguments.length + 2) env (function.applied (argument :: arguments)) = (do
      let captured ← front
      let values ← evaluateInTurn env (List.range' (limit + 1) (arguments.length + 1))
        (argument :: arguments)
      evaluate (limit + arguments.length + 1)
        (captured.extendEach ((param :: params).zip values)) body) := by
  induction arguments generalizing limit function front param params argument with
  | nil =>
    obtain rfl := List.length_eq_zero_iff.mp sameLength.symm
    refine (evaluate_apply_of_closure made argument).trans ?_
    simp [evaluateInTurn, Env.extendEach, Expr.curried]
  | cons next arguments ih =>
    obtain ⟨second, params, rfl⟩ := List.exists_cons_of_length_eq_add_one sameLength.symm
    have made : evaluate (limit + 2) env (.apply function argument) = (do
        let captured ← (do
          let captured ← front
          let value ← evaluate (limit + 1) env argument
          return captured.extend param value)
        return .closure captured second (.curried params body)) := by
      rw [evaluate_apply_of_closure made argument]
      simp only [bind_assoc, pure_bind]
      rfl
    have levels : limit + 1 + arguments.length = limit + (next :: arguments).length := by
      rw [List.length_cons]
      omega
    have further := ih made next (by simpa using sameLength)
    rw [levels] at further
    refine further.trans ?_
    rw [@List.range'_succ (limit + 1), evaluateInTurn_cons _ (limit + 1)]
    simp only [bind_assoc, pure_bind]
    rfl

/-- A function that is written out takes the values of its arguments from the first to the last. -/
theorem evaluate_applied_curried {params : List String} {arguments : List Expr}
    (nonempty : params ≠ []) (sameLength : arguments.length = params.length) (body : Expr)
    (env : Env) (limit : Nat) :
    evaluate (limit + params.length + 1) env ((Expr.curried params body).applied arguments) = (do
      let values ← evaluateInTurn env (List.range' (limit + 1) params.length) arguments
      evaluate (limit + params.length) (env.extendEach (params.zip values)) body) := by
  obtain ⟨param, params, rfl⟩ := List.exists_cons_of_ne_nil nonempty
  obtain ⟨argument, arguments, rfl⟩ := List.exists_cons_of_length_eq_add_one sameLength
  have sameLength : arguments.length = params.length := by simpa using sameLength
  have made : evaluate (limit + 1) env (.curried (param :: params) body) = (do
      let captured ← pure env
      return .closure captured param (.curried params body)) := rfl
  have taken := evaluate_applied made argument sameLength
  rw [sameLength, pure_bind] at taken
  exact taken

/-- Within a limit that the applications use up, no argument is evaluated. -/
theorem evaluate_applied_of_limit_le (env : Env) (function : Expr) {arguments : List Expr}
    {limit : Nat} (within : limit ≤ arguments.length) (store : Store) :
    evaluate limit env (function.applied arguments) store = .error .tooDeep store := by
  induction arguments using List.reverseRecOn generalizing limit with
  | nil =>
    obtain rfl := Nat.le_zero.mp within
    rfl
  | append_singleton arguments argument ih =>
    cases limit with
    | zero => rfl
    | succ limit =>
      rw [List.length_append, List.length_singleton, Nat.succ_le_succ_iff] at within
      rw [Expr.applied, List.foldl_append, List.foldl_cons, List.foldl_nil, evaluate]
      exact bind_of_error (ih within)

/-! ## Items -/

/-- The limits of items, each of which has one level less than the one in front of it. -/
def itemLimits (limit count : Nat) : List Nat :=
  (List.range count).map fun place => limit - place

private theorem itemLimits_succ (limit count : Nat) :
    itemLimits limit (count + 1) = limit :: itemLimits (limit - 1) count := by
  simp only [itemLimits, List.range_succ_eq_map, List.map_cons, List.map_map, Nat.sub_zero]
  congr 2
  funext place
  rw [Function.comp_apply, Nat.sub_sub, Nat.add_comm 1]

/-- The items of a list that is written out become the items of its value. An item for which there
is no level left ends the course like any other failure. -/
theorem evaluate_ofItems (env : Env) (limit : Nat) (items : List Expr) :
    evaluate (limit + 1) env (.ofItems items) = (do
      let values ← evaluateInTurn env (itemLimits limit items.length) items
      return .ofList values) := by
  induction items generalizing limit with
  | nil => rfl
  | cons item items ih =>
    have unfolded : evaluate (limit + 1) env (.ofItems (item :: items)) = (do
        let value ← evaluate limit env item
        let rest ← evaluate limit env (.ofItems items)
        return .pair value rest) := rfl
    rw [unfolded, List.length_cons, itemLimits_succ, evaluateInTurn_cons]
    cases limit with
    | zero => rfl
    | succ limit =>
      rw [ih]
      simp only [bind_assoc, pure_bind]
      rfl

end MiniFun
