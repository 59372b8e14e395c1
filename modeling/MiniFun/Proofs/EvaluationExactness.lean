import MiniFun.Evaluation
import MiniFun.Expr.Induction
import MiniFun.Proofs.EvaluationRules
import MiniFun.Proofs.Sequencing

/-! # Evaluation follows its rules

Within a limit on nesting, evaluation ends in an outcome of the rules or gives up, and a higher
limit changes nothing but the latter. Every outcome of the rules is reached within some limit.
-/

namespace MiniFun

def Error.errorClass : Error → ErrorClass
  | general _ => .general
  | unbound .. => .unboundVariable
  | mistyped _ => .wrongType
  | emptyList _ => .emptyList
  | internal _ => .internal
  | malformed .. => .malformed

/-- The class of what ends a computation; `none` if only its limit on nesting does. -/
def Failure.errorClass? : Failure → Option ErrorClass
  | error cause => some cause.errorClass
  | longNumeral _ | longInteger | improperList _ | nullInPath => some .badValue
  | tooDeep => none

namespace EvaluationOutcome

def ofStep : Except Error Value → EvaluationOutcome
  | .ok result => value result
  | .error cause => error cause.errorClass cause.message

/-- The outcome of a computation and the store left behind; `none` if it gave up. -/
def ofResult? : EStateM.Result Failure Store Value → Option (EvaluationOutcome × Store)
  | .ok result store => some (value result, store)
  | .error failure store => failure.errorClass?.map fun kind => (error kind failure.message, store)

@[simp]
theorem ofResult?_ofStep (step : Except Error Value) (store : Store) :
    ofResult? (Computation.ofStep step store) = some (ofStep step, store) := by
  cases step with
  | ok result => rfl
  | error cause => rfl

/-- A sequence ends in an outcome of its second part, or in an error of its first part. -/
private theorem ofResult?_bind_iff {first : Computation Value} {second : Value → Computation Value}
    {source target : Store} {outcome : EvaluationOutcome} :
    ofResult? ((first >>= second) source) = some (outcome, target) ↔
      (∃ result middle, ofResult? (first source) = some (value result, middle) ∧
        ofResult? (second result middle) = some (outcome, target)) ∨
      ∃ kind message, outcome = error kind message ∧
        ofResult? (first source) = some (error kind message, target) := by
  cases ran : first source with
  | ok result middle =>
    rw [bind_of_ok ran]
    simp [ofResult?, and_assoc]
  | error failure middle =>
    rw [bind_of_error ran]
    cases known : failure.errorClass? with
    | none => simp [ofResult?, known]
    | some kind =>
      simp only [ofResult?, known, Option.map_some, Option.some.injEq, Prod.mk.injEq, reduceCtorEq,
        error.injEq, false_and, exists_const, false_or]
      constructor
      · rintro ⟨rfl, rfl⟩
        exact ⟨kind, failure.message, rfl, ⟨rfl, rfl⟩, rfl⟩
      · rintro ⟨_, _, rfl, ⟨rfl, rfl⟩, rfl⟩
        exact ⟨rfl, rfl⟩

end EvaluationOutcome

/-! ## Lookups, operators and functions of the host -/

private theorem message_selfReference (name : String) :
    (Error.unbound name (some Error.selfReference)).message =
      "unbound variable: " ++ name ++ " (used in its own definition)" := by
  have reason : " (" ++ Error.selfReference ++ ")" = " (used in its own definition)" := by decide
  rw [← reason, ← String.append_assoc, ← String.append_assoc]
  rfl

/-- The relation of a lookup is the one that environments compute. -/
theorem finds_iff {store : Store} {name : String} {env : Env} {outcome : EvaluationOutcome} :
    Finds store name env outcome ↔ outcome = .ofStep (env.find store name) := by
  constructor
  · intro finds
    induction finds with
    | missing => rfl
    | bound value rest => simp [Env.find, EvaluationOutcome.ofStep]
    | filled rest known => simp [Env.find, known, EvaluationOutcome.ofStep]
    | unfilled rest unknown =>
      rw [Env.find, if_pos rfl, unknown]
      exact congrArg (EvaluationOutcome.error .unboundVariable) (message_selfReference name).symm
    | behindBound differs _ ih | behindRecursive differs _ ih => rw [ih, Env.find, if_neg differs]
  · rintro rfl
    induction env with
    | empty => exact .missing
    | bind bound value rest ih =>
      by_cases same : bound = name
      · subst same
        rw [Env.find, if_pos rfl]
        exact .bound value rest
      · rw [Env.find, if_neg same]
        exact .behindBound same ih
    | recursive bound cell rest ih =>
      by_cases same : bound = name
      · subst same
        rw [Env.find, if_pos rfl]
        cases known : store.read? cell with
        | none =>
          change Finds store bound _ (.error _ (Error.message _))
          rw [message_selfReference]
          exact .unfilled rest known
        | some value => exact .filled rest known
      · rw [Env.find, if_neg same]
        exact .behindRecursive same ih

theorem compares_iff {left right : Value} {answer : Bool} :
    Compares left right answer ↔ Operator.areEqual? left right = some answer := by
  constructor
  · intro compares
    cases compares with
    | nils => rfl
    | nilFirst other => cases right <;> first | rfl | exact (other rfl).elim
    | nilSecond other => cases left <;> first | rfl | exact (other rfl).elim
    | ints a b | bools a b => rfl
  · intro known
    cases left <;> cases right <;> cases known
    all_goals constructor
    all_goals nofun

private theorem not_compares_iff {left right : Value} :
    (∀ answer, ¬ Compares left right answer) ↔ Operator.areEqual? left right = none := by
  simp only [compares_iff]
  exact Option.eq_none_iff_forall_not_mem.symm

namespace Operator

private theorem onInts_unfit {operation : Int → Int → Value} {left right : Value}
    (unfit : ¬ (left.isInt ∧ right.isInt)) :
    onInts operation left right = .error (.mistyped .notIntegers) := by
  cases left <;> cases right <;> first | rfl | exact (unfit ⟨rfl, rfl⟩).elim

private theorem onBools_unfit {operation : Bool → Bool → Bool} {left right : Value}
    (unfit : ¬ (left.isBool ∧ right.isBool)) :
    onBools operation left right = .error (.mistyped .notBooleans) := by
  cases left <;> cases right <;> first | rfl | exact (unfit ⟨rfl, rfl⟩).elim

end Operator

namespace Operates

/-- An operator whose rule on integers is known follows the table. -/
private theorem onInts {op : Operator} {operation : Int → Int → Value}
    (arithmetic : op ∈ [.plus, .minus, .times, .less, .lessEqual])
    (rule : ∀ a b, Operates op (.int a) (.int b) (.value (operation a b))) (left right : Value) :
    Operates op left right (.ofStep (Operator.onInts operation left right)) := by
  by_cases fit : left.isInt ∧ right.isInt
  · cases left <;> cases fit.1
    cases right <;> cases fit.2
    exact rule _ _
  · rw [Operator.onInts_unfit fit]
    exact .notIntegers arithmetic fit

/-- An operator whose rule on truth values is known follows the table. -/
private theorem onBools {op : Operator} {operation : Bool → Bool → Bool}
    (logical : op ∈ [.both, .either])
    (rule : ∀ a b, Operates op (.bool a) (.bool b) (.value (.bool (operation a b))))
    (left right : Value) :
    Operates op left right (.ofStep (Operator.onBools operation left right)) := by
  by_cases fit : left.isBool ∧ right.isBool
  · cases left <;> cases fit.1
    cases right <;> cases fit.2
    exact rule _ _
  · rw [Operator.onBools_unfit fit]
    exact .notBooleans logical fit

end Operates

/-- The operator table is the one that operators compute. -/
theorem operates_iff {op : Operator} {left right : Value} {outcome : EvaluationOutcome} :
    Operates op left right outcome ↔ outcome = .ofStep (op.apply left right) := by
  constructor
  · intro operates
    cases operates with
    | cons | plus | minus | times | less | lessEqual | both | either => rfl
    | notIntegers arithmetic unfit =>
      simp only [List.mem_cons, List.not_mem_nil, or_false] at arithmetic
      obtain rfl | rfl | rfl | rfl | rfl := arithmetic <;>
        rw [Operator.apply, Operator.onInts_unfit unfit] <;> rfl
    | equal compared | notEqual compared =>
      rw [Operator.apply, Operator.onEquality, compares_iff.mp compared]
      rfl
    | equalIncomparable unfit | notEqualIncomparable unfit =>
      rw [Operator.apply, Operator.onEquality, not_compares_iff.mp unfit]
      rfl
    | notBooleans logical unfit =>
      simp only [List.mem_cons, List.not_mem_nil, or_false] at logical
      obtain rfl | rfl := logical <;> rw [Operator.apply, Operator.onBools_unfit unfit] <;> rfl
  · rintro rfl
    cases op with
    | plus => exact .onInts (by decide) .plus left right
    | minus => exact .onInts (by decide) .minus left right
    | times => exact .onInts (by decide) .times left right
    | less => exact .onInts (by decide) .less left right
    | lessEqual => exact .onInts (by decide) .lessEqual left right
    | equal =>
      rw [Operator.apply, Operator.onEquality]
      cases compared : Operator.areEqual? left right with
      | none => exact .equalIncomparable (not_compares_iff.mpr compared)
      | some answer => exact .equal (compares_iff.mpr compared)
    | notEqual =>
      rw [Operator.apply, Operator.onEquality]
      cases compared : Operator.areEqual? left right with
      | none => exact .notEqualIncomparable (not_compares_iff.mpr compared)
      | some answer => exact .notEqual (compares_iff.mpr compared)
    | both => exact .onBools (by decide) .both left right
    | either => exact .onBools (by decide) .either left right
    | cons => exact .cons left right

theorem responds_iff {function : HostFunction} {argument : Value} {outcome : EvaluationOutcome} :
    Responds function argument outcome ↔ outcome = .ofStep (function.apply argument) := by
  constructor
  · intro responds
    cases responds with
    | head | headOfNil | tail | tailOfNil | identity | failing => rfl
    | headOfNonList notNil notPair | tailOfNonList notNil notPair =>
      cases argument with
      | nil => exact (notNil rfl).elim
      | pair first rest => exact (notPair first rest rfl).elim
      | _ => rfl
  · rintro rfl
    cases function with
    | head =>
      cases argument with
      | nil => exact .headOfNil
      | pair first rest => exact .head first rest
      | _ => exact .headOfNonList nofun nofun
    | tail =>
      cases argument with
      | nil => exact .tailOfNil
      | pair first rest => exact .tail first rest
      | _ => exact .tailOfNonList nofun nofun
    | identity => exact .identity argument
    | failing => exact .failing argument

/-! ## Higher limits -/

/-- The bound expression starts with a fresh cell, which is filled before the body starts. -/
theorem evaluate_letIn (limit : Nat) (env : Env) (name : String) (bound body : Expr)
    (store : Store) :
    evaluate (limit + 1) env (.letIn name bound body) store =
      (do
        let value ← evaluate limit (.recursive name store.size env) bound
        modify fun (middle : Store) => middle.fill store.size value
        evaluate limit (.recursive name store.size env) body) store.reserve := by
  have reserved : env.reserve name store =
      .ok (store.size, .recursive name store.size env) store.reserve := rfl
  rw [evaluate, Env.define, bind_assoc, bind_of_ok reserved, bind_assoc]
  rfl

/-- The computation did not stop for its limit on nesting. -/
def Finished {α : Type} (result : EStateM.Result Failure Store α) : Prop :=
  ∀ store, result ≠ .error .tooDeep store

/-- The second computation differs from the first only where the first one gives up. -/
def ContinuedBy {α : Type} (shorter longer : Computation α) : Prop :=
  ∀ store, Finished (shorter store) → longer store = shorter store

namespace ContinuedBy

theorem refl {α : Type} (computation : Computation α) : ContinuedBy computation computation :=
  fun _ _ => rfl

theorem bind {α β : Type} {shorter longer : Computation α} {first second : α → Computation β}
    (front : ContinuedBy shorter longer)
    (back : ∀ result, ContinuedBy (first result) (second result)) :
    ContinuedBy (shorter >>= first) (longer >>= second) := by
  intro store finished
  cases ran : shorter store with
  | ok result middle =>
    have same : longer store = .ok result middle := by
      rw [front store (by rw [ran]; nofun), ran]
    rw [bind_of_ok ran] at finished ⊢
    rw [bind_of_ok same]
    exact back result middle finished
  | error failure middle =>
    rw [bind_of_error ran] at finished ⊢
    have same : longer store = .error failure middle := by
      rw [front store, ran]
      rw [ran]
      intro final same
      cases same
      exact finished _ rfl
    exact bind_of_error same

end ContinuedBy

theorem evaluate_continuedBy {limit more : Nat} (higher : limit ≤ more) (env : Env) (expr : Expr) :
    ContinuedBy (evaluate limit env expr) (evaluate more env expr) := by
  induction limit generalizing more env expr with
  | zero => exact fun store finished => (finished store rfl).elim
  | succ limit ih =>
    obtain ⟨more, rfl⟩ : ∃ less, more = less + 1 := ⟨more - 1, by omega⟩
    have inner := fun env expr => ih (Nat.le_of_succ_le_succ higher) env expr
    cases expr with
    | int | bool | nil | var | lambda | embedded => exact .refl _
    | binary op left right =>
      exact .bind (inner env left) fun _ => .bind (inner env right) fun _ => .refl _
    | unknown symbol left right =>
      exact .bind (inner env left) fun _ => .bind (inner env right) fun _ => .refl _
    | cond test consequent alternative =>
      refine .bind (inner env test) fun value => ?_
      split
      · exact inner env consequent
      · exact inner env alternative
      · exact .refl _
    | letIn name bound body =>
      intro store finished
      rw [evaluate_letIn] at finished ⊢
      rw [evaluate_letIn]
      refine ContinuedBy.bind (inner _ bound) (fun value => ?_) _ finished
      exact .bind (.refl _) fun _ => inner _ body
    | apply function argument =>
      refine .bind (inner env function) fun functionValue => ?_
      split
      · refine .bind (inner env argument) fun argumentValue => ?_
        cases functionValue with
        | closure captured param body => exact inner _ body
        | _ => exact .refl _
      · exact .refl _

/-! ## Every outcome is one of the rules -/

open EvaluationOutcome

def SoundWithin (limit : Nat) : Prop :=
  ∀ {env : Env} {expr : Expr} {source target : Store} {outcome : EvaluationOutcome},
    ofResult? (evaluate limit env expr source) = some (outcome, target) →
      Evaluates env source expr outcome target

namespace SoundWithin

variable {limit : Nat} {env : Env} {source target : Store} {outcome : EvaluationOutcome}

private theorem binary (inner : SoundWithin limit) {op : Operator} {left right : Expr}
    (ended : ofResult? (evaluate (limit + 1) env (.binary op left right) source) =
      some (outcome, target)) :
    Evaluates env source (.binary op left right) outcome target := by
  rw [evaluate, ofResult?_bind_iff] at ended
  obtain ⟨leftValue, middle, first, ended⟩ | ⟨kind, message, rfl, failed⟩ := ended
  · rw [ofResult?_bind_iff] at ended
    obtain ⟨rightValue, last, second, ended⟩ | ⟨kind, message, rfl, failed⟩ := ended
    · rw [ofResult?_ofStep] at ended
      cases ended
      exact .binary (inner first) (inner second) (operates_iff.mpr rfl)
    · exact .binaryRight (inner first) (inner failed)
  · exact .binaryLeft (inner failed)

private theorem unknown (inner : SoundWithin limit) {symbol : String} {left right : Expr}
    (ended : ofResult? (evaluate (limit + 1) env (.unknown symbol left right) source) =
      some (outcome, target)) :
    Evaluates env source (.unknown symbol left right) outcome target := by
  rw [evaluate, ofResult?_bind_iff] at ended
  obtain ⟨leftValue, middle, first, ended⟩ | ⟨kind, message, rfl, failed⟩ := ended
  · rw [ofResult?_bind_iff] at ended
    obtain ⟨rightValue, last, second, ended⟩ | ⟨kind, message, rfl, failed⟩ := ended
    · cases ended
      exact .unknown (inner first) (inner second)
    · exact .unknownRight (inner first) (inner failed)
  · exact .unknownLeft (inner failed)

private theorem cond (inner : SoundWithin limit) {test consequent alternative : Expr}
    (ended : ofResult? (evaluate (limit + 1) env (.cond test consequent alternative) source) =
      some (outcome, target)) :
    Evaluates env source (.cond test consequent alternative) outcome target := by
  rw [evaluate, ofResult?_bind_iff] at ended
  obtain ⟨testValue, middle, first, ended⟩ | ⟨kind, message, rfl, failed⟩ := ended
  · cases testValue with
    | bool value =>
      cases value with
      | false => exact .condFalse (inner first) (inner ended)
      | true => exact .condTrue (inner first) (inner ended)
    | _ =>
      cases ended
      exact .condNotBoolean (inner first) rfl
  · exact .condTest (inner failed)

private theorem letIn (inner : SoundWithin limit) {name : String} {bound body : Expr}
    (ended : ofResult? (evaluate (limit + 1) env (.letIn name bound body) source) =
      some (outcome, target)) :
    Evaluates env source (.letIn name bound body) outcome target := by
  rw [evaluate_letIn, ofResult?_bind_iff] at ended
  obtain ⟨boundValue, middle, first, ended⟩ | ⟨kind, message, rfl, failed⟩ := ended
  · exact .letIn (inner first) (inner ended)
  · exact .letBound (inner failed)

private theorem apply (inner : SoundWithin limit) {function argument : Expr}
    (ended : ofResult? (evaluate (limit + 1) env (.apply function argument) source) =
      some (outcome, target)) :
    Evaluates env source (.apply function argument) outcome target := by
  rw [evaluate, ofResult?_bind_iff] at ended
  obtain ⟨functionValue, middle, first, ended⟩ | ⟨kind, message, rfl, failed⟩ := ended
  · split at ended
    · rename_i isFunction
      rw [ofResult?_bind_iff] at ended
      obtain ⟨argumentValue, last, second, ended⟩ | ⟨kind, message, rfl, failed⟩ := ended
      · cases functionValue with
        | closure captured param body =>
          exact .applyClosure (inner first) (inner second) (inner ended)
        | primitive builtin =>
          rw [Value.applyWith, ofResult?_ofStep] at ended
          cases ended
          exact .applyPrimitive (inner first) (inner second) (responds_iff.mpr rfl)
        | _ => cases isFunction
      · exact .applyArgument (inner first) isFunction (inner failed)
    · rename_i notFunction
      cases ended
      exact .applyNonFunction (inner first) (Bool.eq_false_iff.mpr notFunction)
  · exact .applyFunction (inner failed)

end SoundWithin

/-- From some limit on, the computation ends in the outcome. -/
def Eventually (computation : Nat → Computation Value) (source : Store)
    (outcome : EvaluationOutcome) (target : Store) : Prop :=
  ∃ limit, ∀ more, limit ≤ more → ofResult? (computation more source) = some (outcome, target)

namespace Eventually

variable {first : Nat → Computation Value} {second : Nat → Value → Computation Value}
  {source middle target : Store}

theorem always {computation : Computation Value} {outcome : EvaluationOutcome}
    (ended : ofResult? (computation source) = some (outcome, target)) :
    Eventually (fun _ => computation) source outcome target :=
  ⟨0, fun _ _ => ended⟩

theorem bind {result : Value} {outcome : EvaluationOutcome}
    (front : Eventually first source (.value result) middle)
    (back : Eventually (fun limit => second limit result) middle outcome target) :
    Eventually (fun limit => first limit >>= second limit) source outcome target := by
  obtain ⟨frontLimit, front⟩ := front
  obtain ⟨backLimit, back⟩ := back
  refine ⟨max frontLimit backLimit, fun more enough => ?_⟩
  rw [Nat.max_le] at enough
  exact ofResult?_bind_iff.mpr (.inl ⟨result, middle, front more enough.1, back more enough.2⟩)

theorem bind_error {kind : ErrorClass} {message : String}
    (front : Eventually first source (.error kind message) target) :
    Eventually (fun limit => first limit >>= second limit) source (.error kind message) target := by
  obtain ⟨limit, front⟩ := front
  refine ⟨limit, fun more enough => ?_⟩
  exact ofResult?_bind_iff.mpr (.inr ⟨kind, message, rfl, front more enough⟩)

/-- The evaluation of an expression takes one level of nesting for itself. -/
private theorem nested {env : Env} {expr : Expr} {outcome : EvaluationOutcome}
    (inner : Eventually (fun limit => evaluate (limit + 1) env expr) source outcome target) :
    Eventually (fun limit => evaluate limit env expr) source outcome target := by
  obtain ⟨limit, inner⟩ := inner
  refine ⟨limit + 1, fun more enough => ?_⟩
  obtain ⟨less, rfl⟩ : ∃ less, more = less + 1 := ⟨more - 1, by omega⟩
  exact inner less (Nat.le_of_succ_le_succ enough)

/-- A definition starts its bound expression with a fresh cell. -/
private theorem defined {env : Env} {name : String} {bound body : Expr}
    {outcome : EvaluationOutcome} (inner : Eventually (fun limit => do
      let value ← evaluate limit (.recursive name source.size env) bound
      modify fun (store : Store) => store.fill source.size value
      evaluate limit (.recursive name source.size env) body) source.reserve outcome target) :
    Eventually (fun limit => evaluate limit env (.letIn name bound body)) source outcome target := by
  obtain ⟨limit, inner⟩ := inner
  refine .nested ⟨limit, fun more enough => ?_⟩
  change ofResult? (evaluate (more + 1) env (.letIn name bound body) source) = _
  rw [evaluate_letIn]
  exact inner more enough

theorem unique {first second : EvaluationOutcome} {firstTarget secondTarget : Store}
    {computation : Nat → Computation Value}
    (one : Eventually computation source first firstTarget)
    (other : Eventually computation source second secondTarget) :
    first = second ∧ firstTarget = secondTarget := by
  obtain ⟨oneLimit, one⟩ := one
  obtain ⟨otherLimit, other⟩ := other
  have same := (one (max oneLimit otherLimit) (Nat.le_max_left _ _)).symm.trans
    (other _ (Nat.le_max_right _ _))
  exact Prod.mk.inj (Option.some.inj same)

end Eventually

/-- What the rules derive is reached, and from then on at every limit. -/
theorem Evaluates.eventually {env : Env} {expr : Expr} {source target : Store}
    {outcome : EvaluationOutcome} (derived : Evaluates env source expr outcome target) :
    Eventually (fun limit => evaluate limit env expr) source outcome target := by
  induction derived with
  | int | bool | nil | lambda => exact .nested (.always rfl)
  | var found =>
    rw [finds_iff.mp found]
    exact .nested (.always (ofResult?_ofStep _ _))
  | binary _ _ operates ihLeft ihRight =>
    rw [operates_iff.mp operates]
    exact .nested (.bind ihLeft (.bind ihRight (.always (ofResult?_ofStep _ _))))
  | unknown _ _ ihLeft ihRight => exact .nested (.bind ihLeft (.bind ihRight (.always rfl)))
  | binaryLeft _ ih | unknownLeft _ ih | condTest _ ih | applyFunction _ ih =>
    exact .nested (.bind_error ih)
  | binaryRight _ _ ihLeft ihRight | unknownRight _ _ ihLeft ihRight =>
    exact .nested (.bind ihLeft (.bind_error ihRight))
  | condTrue _ _ ihTest ihBranch | condFalse _ _ ihTest ihBranch =>
    exact .nested (.bind ihTest ihBranch)
  | @condNotBoolean _ _ _ _ _ _ testValue _ notBoolean ihTest =>
    refine .nested (.bind ihTest ?_)
    cases testValue with
    | bool => cases notBoolean
    | _ => exact .always rfl
  | letIn _ _ ihBound ihBody =>
    obtain ⟨limit, ihBody⟩ := ihBody
    exact .defined (.bind ihBound ⟨limit, ihBody⟩)
  | letBound _ ihBound => exact .defined (.bind_error ihBound)
  | applyClosure _ _ _ ihFunction ihArgument ihBody =>
    exact .nested (.bind ihFunction (.bind ihArgument ihBody))
  | applyPrimitive _ _ responds ihFunction ihArgument =>
    rw [responds_iff.mp responds]
    exact .nested (.bind ihFunction (.bind ihArgument (.always (ofResult?_ofStep _ _))))
  | applyNonFunction _ notFunction ihFunction =>
    refine .nested (.bind ihFunction ?_)
    rw [notFunction]
    exact .always rfl
  | applyArgument _ isFunction _ ihFunction ihArgument =>
    refine .nested (.bind ihFunction ?_)
    rw [isFunction]
    exact .bind_error ihArgument
  | embedded shown =>
    refine .nested ⟨0, fun more _ => ?_⟩
    change ofResult? (Value.refuse _ _) = _
    rw [Value.refuse, shown]
    rfl
  | embeddedUnwritable unshown =>
    refine .nested ⟨0, fun more _ => ?_⟩
    change ofResult? (Value.refuse _ _) = _
    rw [Value.refuse, unshown]
    rfl

end MiniFun
