import Mathlib.Data.Nat.Factorial.Basic
import MiniFun.Proofs.FreeNames
import MiniFun.Proofs.RecursiveFunctions

/-! # Runs without an end

An evaluation within a limit can only finish if the evaluations that it waits for finish within
smaller limits. Where a call waits for a call of the same kind, no limit is ever enough. The
factorial shows both sides: from a natural number the recursion goes down to zero and comes back
with the product, from a negative number it goes down for ever.
-/

namespace MiniFun

open EvaluationOutcome

/-! ## What an evaluation waits for -/

/-- An evaluation that did not finish has exceeded its limit. -/
private theorem tooDeep_of_not_finished {α : Type} {result : EStateM.Result Failure Store α}
    (endless : ¬ Finished result) : ∃ target, result = .error .tooDeep target := by
  simpa [Finished] using endless

namespace Finished

variable {α β : Type} {first : Computation α} {second : α → Computation β}
  {source middle target : Store}

theorem front (finished : Finished ((first >>= second) source)) : Finished (first source) := by
  intro target failed
  exact finished target (bind_of_error failed)

theorem back (finished : Finished ((first >>= second) source)) {result : α}
    (success : first source = .ok result middle) : Finished (second result middle) := by
  rwa [bind_of_ok success] at finished

variable {limit : Nat} {env : Env} {expr : Expr} {value : Value}

/-- If the rules derive a value, an evaluation that finishes gives it. -/
theorem eq_ok (finished : Finished (evaluate limit env expr source))
    (derived : Evaluates env source expr (.value value) target) :
    evaluate limit env expr source = .ok value target := by
  have ended := derived.eventually.of_finished finished
  cases ran : evaluate limit env expr source with
  | ok result final =>
    rw [ran] at ended
    cases ended
    rfl
  | error failure final => simp [ran, ofResult?] at ended

/-- Some of the limit is needed for the expression itself. -/
theorem limit_pos (finished : Finished (evaluate limit env expr source)) : 0 < limit := by
  cases limit with
  | zero => exact (finished source rfl).elim
  | succ less => exact Nat.succ_pos less

/-- An operator waits for its right operand. -/
theorem binaryRight {op : Operator} {left right : Expr}
    (finished : Finished (evaluate limit env (.binary op left right) source))
    (leftValue : Evaluates env source left (.value value) middle) :
    ∃ less < limit, Finished (evaluate less env right middle) := by
  obtain ⟨less, rfl⟩ := Nat.exists_eq_add_of_lt finished.limit_pos
  rw [Nat.zero_add, evaluate] at finished
  exact ⟨less, by omega, (finished.back (finished.front.eq_ok leftValue)).front⟩

/-- A conditional waits for the branch that is taken. -/
theorem condFalse {test consequent alternative : Expr}
    (finished : Finished (evaluate limit env (.cond test consequent alternative) source))
    (isFalse : Evaluates env source test (.value (.bool false)) middle) :
    ∃ less < limit, Finished (evaluate less env alternative middle) := by
  obtain ⟨less, rfl⟩ := Nat.exists_eq_add_of_lt finished.limit_pos
  rw [Nat.zero_add, evaluate] at finished
  exact ⟨less, by omega, finished.back (finished.front.eq_ok isFalse)⟩

/-- A definition waits for its body. -/
theorem letBody {name : String} {bound body : Expr}
    (finished : Finished (evaluate limit env (.letIn name bound body) source))
    (boundValue : Evaluates (.recursive name source.size env) source.reserve bound (.value value)
      middle) :
    ∃ less < limit, Finished (evaluate less (.recursive name source.size env) body
      (middle.fill source.size value)) := by
  obtain ⟨less, rfl⟩ := Nat.exists_eq_add_of_lt finished.limit_pos
  rw [Nat.zero_add, evaluate_letIn] at finished
  exact ⟨less, by omega, finished.back (finished.front.eq_ok boundValue)⟩

/-- A call waits for the body of the function. -/
theorem applyBody {between : Store} {captured : Env} {function argument body : Expr}
    {param : String} (finished : Finished (evaluate limit env (.apply function argument) source))
    (isFunction : Evaluates env source function (.value (.closure captured param body)) middle)
    (argumentValue : Evaluates env middle argument (.value value) between) :
    ∃ less < limit, Finished (evaluate less (.bind param value captured) body between) := by
  obtain ⟨less, rfl⟩ := Nat.exists_eq_add_of_lt finished.limit_pos
  rw [Nat.zero_add, evaluate] at finished
  have called := finished.back (finished.front.eq_ok isFunction)
  exact ⟨less, by omega, called.back (called.front.eq_ok argumentValue)⟩

end Finished

/-! ## The factorial -/

def factorialText : String :=
  "let fac n = if n == 0 then 1 else n * fac (n - 1) in fac k"

def factorialBody : Expr :=
  .cond (.binary .equal (.var "n") (.int 0)) (.int 1)
    (.binary .times (.var "n") (.apply (.var "fac") (.binary .minus (.var "n") (.int 1))))

private theorem parse_factorialText :
    parse factorialText =
      .ok (.letIn "fac" (.lambda "n" factorialBody) (.apply (.var "fac") (.var "k"))) :=
  parse_of_toOption (by decide +kernel)

section

variable (env : Env) (store : Store) (cell : Nat)

private theorem evaluates_isZero (number : Int) :
    Evaluates (.bind "n" (.int number) (.recursive "fac" cell env)) store
      (.binary .equal (.var "n") (.int 0)) (.value (.bool (number = 0))) store :=
  .binary (.var (.bound ..)) (.int 0) (.equal (.ints number 0))

private theorem evaluates_pred (number : Int) :
    Evaluates (.bind "n" (.int number) (.recursive "fac" cell env)) store
      (.binary .minus (.var "n") (.int 1)) (.value (.int (number - 1))) store :=
  .binary (.var (.bound ..)) (.int 1) (.minus number 1)

variable {env store cell}
  (holdsItself : store.read? cell = some (.closure (.recursive "fac" cell env) "n" factorialBody))
include holdsItself

/-- One call of the function, on a natural number. -/
theorem evaluates_factorialBody (number : Nat) :
    Evaluates (.bind "n" (.int number) (.recursive "fac" cell env)) store factorialBody
      (.value (.int number.factorial)) store := by
  induction number with
  | zero => exact .condTrue (evaluates_isZero env store cell 0) (.int 1)
  | succ number ih =>
    have isZero := evaluates_isZero env store cell (number + 1 : Nat)
    rw [decide_eq_false (by omega)] at isZero
    have pred := evaluates_pred env store cell (number + 1 : Nat)
    rw [show ((number + 1 : Nat) : Int) - 1 = number by omega] at pred
    have call := Evaluates.applyClosure (evaluates_itself (by decide) holdsItself _) pred ih
    have product := Evaluates.binary (.var (.bound ..)) call (.times ..)
    rw [← Int.natCast_mul, ← Nat.factorial_succ] at product
    exact .condFalse isZero product

/-- A call on a negative number waits for a call on the number below, which is negative as well. -/
theorem not_finished_factorialBody (limit : Nat) {number : Int} (negative : number < 0) :
    ¬ Finished (evaluate limit (.bind "n" (.int number) (.recursive "fac" cell env)) factorialBody
      store) := by
  induction limit using Nat.strongRecOn generalizing number with
  | ind limit ih =>
    intro finished
    have isZero := evaluates_isZero env store cell number
    rw [decide_eq_false (by omega)] at isZero
    obtain ⟨product, below, finished⟩ := finished.condFalse isZero
    obtain ⟨call, lower, finished⟩ := finished.binaryRight (.var (.bound ..))
    obtain ⟨inner, lowest, finished⟩ := finished.applyBody
      (evaluates_itself (by decide) holdsItself _) (evaluates_pred env store cell number)
    exact ih inner (by omega) (by omega) finished

end

/-- The definition of the function leaves the value of `k` as it is. -/
private theorem finds_argument {env : Env} {store : Store} {value : Value}
    (known : env.find store "k" = .ok value) :
    Finds (store.withFunction "fac" env "n" factorialBody) "k" (.recursive "fac" store.size env)
      (.value value) := by
  have unfilled : store.reserve.read? store.size = none := by
    rw [Store.read?_reserve, Store.read?_eq_none (Nat.le_refl _)]
  have grows : store.Grows (store.withFunction "fac" env "n" factorialBody) :=
    (Store.Grows.reserve store).trans (.fill unfilled _)
  refine .behindRecursive (by decide) (finds_iff.mpr ?_)
  rw [grows.find_ok known]
  rfl

/-- The recursive program for the factorial is right where it has an answer, and has one exactly
where it should. Whatever else the environment binds, with a natural number for `k` the program
gives the factorial from some limit on, and nothing else before. With a negative number it exceeds
every limit. -/
theorem factorial_ends_on_naturals (number : Int) (env : Env) (store : Store)
    (known : env.find store "k" = .ok (.int number)) :
    let outcome : EvaluationOutcome := .value (.int number.toNat.factorial)
    let target := store.withFunction "fac" env "n" factorialBody
    (0 ≤ number →
      Eventually (fun limit => evaluateSource limit env factorialText) store outcome target ∧
      ∀ limit, Finished (evaluateSource limit env factorialText store) →
        ofResult? (evaluateSource limit env factorialText store) = some (outcome, target)) ∧
    (number < 0 → ∀ limit, ∃ target,
      evaluateSource limit env factorialText store = .error .tooDeep target) := by
  intro outcome target
  have holdsItself := store.read?_withFunction "fac" env "n" factorialBody
  simp only [evaluateSource_of_ok parse_factorialText]
  constructor
  · intro natural
    have argument := finds_argument known
    have called := evaluates_factorialBody holdsItself number.toNat
    rw [Int.toNat_of_nonneg natural] at called
    have reached := (Evaluates.ofDefinition
      (.applyClosure (.var (.filled env holdsItself)) (.var argument) called)).eventually
    exact ⟨reached, fun _ finished => reached.of_finished finished⟩
  · intro negative limit
    apply tooDeep_of_not_finished
    intro finished
    obtain ⟨call, -, finished⟩ := finished.letBody (.lambda "n" factorialBody)
    obtain ⟨body, -, finished⟩ := finished.applyBody (.var (.filled env holdsItself))
      (.var (finds_argument known))
    exact not_finished_factorialBody holdsItself body negative finished

/-- The number is in a frame, in front of bindings of the names that the program defines; a number
that a host program has bound is negative. -/
theorem factorial_ends_on_naturals_of_frame :
    let env : Env := .recursive "k" 0 (.bind "fac" .nil (.bind "n" (.bool true) .empty))
    let store : Store := ⟨#[some (.int 5)]⟩
    let host : Env := (Interpreter.standard.bind "k" (.int (-1))).env
    env.find store "k" = .ok (.int 5) ∧ host.find store "k" = .ok (.int (-1)) ∧
    Eventually (fun limit => evaluateSource limit env factorialText) store (.value (.int 120))
      (store.withFunction "fac" env "n" factorialBody) ∧
    ∀ limit, ∃ target, evaluateSource limit host factorialText store = .error .tooDeep target := by
  intro env store host
  have five : env.find store "k" = .ok (.int 5) := by decide
  have minusOne : host.find store "k" = .ok (.int (-1)) := by decide
  exact ⟨five, minusOne, ((factorial_ends_on_naturals 5 env store five).1 (by decide)).1,
    (factorial_ends_on_naturals (-1) host store minusOne).2 (by decide)⟩

end MiniFun
