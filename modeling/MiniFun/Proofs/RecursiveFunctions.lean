import MiniFun.Proofs.EvaluationExactness
import MiniFun.Proofs.FrameHistory
import MiniFun.Proofs.PrintedFunctions
import MiniFun.Value.Chain

/-! # Functions that call themselves

A function that is defined under a name finds itself there, each time that it is called. What it
computes is shown on the rules of evaluation, by induction on the argument and not on the program:
one call is derived from the derivation of the call inside of it. The rules know no limit, so that
the limits come in once, at the end.
-/

namespace MiniFun

open EvaluationOutcome

/-- An outcome that is reached from some limit on is the only one below it as well. -/
theorem Eventually.of_finished {env : Env} {expr : Expr} {source target : Store}
    {outcome : EvaluationOutcome} {limit : Nat}
    (reached : Eventually (fun limit => evaluate limit env expr) source outcome target)
    (finished : Finished (evaluate limit env expr source)) :
    ofResult? (evaluate limit env expr source) = some (outcome, target) := by
  obtain ⟨bound, reached⟩ := reached
  have later : ofResult? (evaluate (max limit bound) env expr source) = some (outcome, target) :=
    reached _ (Nat.le_max_right limit bound)
  rwa [evaluate_continuedBy (Nat.le_max_left limit bound) env expr source finished] at later

/-- The store with one more cell, which holds a function that finds itself there by its name. -/
def Store.withFunction (store : Store) (name : String) (env : Env) (param : String) (body : Expr) :
    Store :=
  store.reserve.fill store.size (.closure (.recursive name store.size env) param body)

theorem Store.read?_withFunction (store : Store) (name : String) (env : Env) (param : String)
    (body : Expr) :
    (store.withFunction name env param body).read? store.size =
      some (.closure (.recursive name store.size env) param body) :=
  read?_fill_self (by rw [size_reserve]; exact Nat.lt_succ_self _) _

/-- A definition of a function only adds the function to the store. -/
theorem Evaluates.ofDefinition {env : Env} {store target : Store} {name param : String}
    {body rest : Expr} {outcome : EvaluationOutcome}
    (used : Evaluates (.recursive name store.size env) (store.withFunction name env param body) rest
      outcome target) :
    Evaluates env store (.letIn name (.lambda param body) rest) outcome target :=
  .letIn (.lambda param body) used

/-- Inside of a call, a function finds itself behind its argument. -/
theorem evaluates_itself {env : Env} {store : Store} {name param : String} {cell : Nat}
    {body : Expr} (differs : param ≠ name)
    (holdsItself : store.read? cell = some (.closure (.recursive name cell env) param body))
    (value : Value) :
    Evaluates (.bind param value (.recursive name cell env)) store (.var name)
      (.value (.closure (.recursive name cell env) param body)) store :=
  .var (.behindBound differs (.filled env holdsItself))

/-! ## The length of a list -/

def lengthText : String :=
  "let length xs = if xs == [] then 0 else 1 + length (tail xs) in length l"

def lengthBody : Expr :=
  .cond (.binary .equal (.var "xs") .nil) (.int 0)
    (.binary .plus (.int 1) (.apply (.var "length") (.apply (.var "tail") (.var "xs"))))

private theorem parse_lengthText :
    parse lengthText =
      .ok (.letIn "length" (.lambda "xs" lengthBody) (.apply (.var "length") (.var "l"))) :=
  parse_of_toOption (by decide +kernel)

/-- The number of items of a list. Another value is refused where the chain of its pairs ends. -/
def lengthOutcome (value : Value) : EvaluationOutcome :=
  match value.toList with
  | .ok items => .value (.int items.length)
  | .error _ => .error .wrongType "tail called on non-list"

/-- No list ends in a value that is neither the empty list nor a pair. -/
private theorem lengthOutcome_of_end {value : Value} (notNil : value ≠ .nil)
    (notPair : ∀ head tail, value ≠ .pair head tail) :
    lengthOutcome value = .error .wrongType "tail called on non-list" := by
  have isEnd : value.chainEnd = value := by
    cases value with
    | pair head tail => exact (notPair head tail rfl).elim
    | _ => rfl
  rw [lengthOutcome]
  split
  · next listed => exact (notNil (isEnd ▸ (Value.toList_eq_ok_iff.mp listed).1)).elim
  · rfl

section

variable {env : Env} {store : Store} {cell : Nat}

/-- Inside of a call, a value that is not the empty list leaves the call inside of it to be made. -/
private theorem evaluates_lengthBody_of_ne_nil {value : Value} {outcome : EvaluationOutcome}
    (notNil : value ≠ .nil)
    (counted : Evaluates (.bind "xs" value (.recursive "length" cell env)) store
      (.binary .plus (.int 1) (.apply (.var "length") (.apply (.var "tail") (.var "xs"))))
      outcome store) :
    Evaluates (.bind "xs" value (.recursive "length" cell env)) store lengthBody outcome store :=
  .condFalse (.binary (.var (.bound value _)) .nil (.equal (.nilSecond notNil))) counted

private theorem evaluates_tail (tailKnown : Finds store "tail" env (.value (.primitive .tail)))
    {value : Value} {outcome : EvaluationOutcome} (responds : Responds .tail value outcome) :
    Evaluates (.bind "xs" value (.recursive "length" cell env)) store
      (.apply (.var "tail") (.var "xs")) outcome store :=
  .applyPrimitive (.var (.behindBound (by decide) (.behindRecursive (by decide) tailKnown)))
    (.var (.bound ..)) responds

variable (tailKnown : Finds store "tail" env (.value (.primitive .tail)))
  (holdsItself : store.read? cell = some (.closure (.recursive "length" cell env) "xs" lengthBody))
include tailKnown holdsItself

/-- The comparison with the empty list fails for no value. At the end of an improper chain it is the
tail that fails, before the call that was to take it. -/
private theorem evaluates_lengthBody_of_end {value : Value} (notNil : value ≠ .nil)
    (notPair : ∀ head tail, value ≠ .pair head tail) :
    Evaluates (.bind "xs" value (.recursive "length" cell env)) store lengthBody
      (lengthOutcome value) store := by
  rw [lengthOutcome_of_end notNil notPair]
  refine evaluates_lengthBody_of_ne_nil notNil (.binaryRight (.int 1) ?_)
  exact .applyArgument (evaluates_itself (by decide) holdsItself value) rfl
    (evaluates_tail tailKnown (.tailOfNonList notNil notPair))

/-- One call of the function, on any value. -/
theorem evaluates_lengthBody (value : Value) :
    Evaluates (.bind "xs" value (.recursive "length" cell env)) store lengthBody
      (lengthOutcome value) store := by
  induction value with
  | nil => exact .condTrue (.binary (.var (.bound ..)) .nil (.equal .nils)) (.int 0)
  | pair head tail _ ih =>
    have function := evaluates_itself (by decide) holdsItself (.pair head tail)
    have call := Evaluates.applyClosure function (evaluates_tail tailKnown (.tail head tail)) ih
    refine evaluates_lengthBody_of_ne_nil nofun ?_
    rw [lengthOutcome] at call ⊢
    rw [Value.toList_pair]
    cases listed : tail.toList with
    | ok items =>
      rw [listed] at call
      have sum := Evaluates.binary (.int 1) call (.plus ..)
      rwa [Int.add_comm] at sum
    | error failure =>
      rw [listed] at call
      exact .binaryRight (.int 1) call
  | int | bool | closure | primitive | failed =>
    exact evaluates_lengthBody_of_end tailKnown holdsItself nofun nofun

end

theorem evaluates_length (value : Value) (store : Store) :
    let env := Env.initial.extend "l" value
    let target := store.withFunction "length" env "xs" lengthBody
    Evaluates env store
      (.letIn "length" (.lambda "xs" lengthBody) (.apply (.var "length") (.var "l")))
      (lengthOutcome value) target := by
  intro env target
  have tailKnown : Finds target "tail" env (.value (.primitive .tail)) :=
    .behindBound (by decide) (.behindBound (by decide) (.bound ..))
  have holdsItself := store.read?_withFunction "length" env "xs" lengthBody
  exact .ofDefinition (.applyClosure (.var (.filled env holdsItself))
    (.var (.behindRecursive (by decide) (.bound ..)))
    (evaluates_lengthBody tailKnown holdsItself value))

/-- Counting the items of a list by recursion is exact on every value. From some limit on, the
program ends with the number of items if the value is a list, and otherwise in the refusal of the
end of its chain. Within a smaller limit it ends in the same way or gives up. -/
theorem length_is_exact (value : Value) (store : Store) :
    let env := Env.initial.extend "l" value
    let target := store.withFunction "length" env "xs" lengthBody
    Eventually (fun limit => evaluateSource limit env lengthText) store (lengthOutcome value)
      target ∧
    ∀ limit, Finished (evaluateSource limit env lengthText store) →
      ofResult? (evaluateSource limit env lengthText store) =
        some (lengthOutcome value, target) := by
  intro env target
  have reached := (evaluates_length value store).eventually
  simp only [evaluateSource_of_ok parse_lengthText]
  exact ⟨reached, fun _ finished => reached.of_finished finished⟩

end MiniFun
