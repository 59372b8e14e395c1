import MiniFun.Evaluation.Operation
import MiniFun.Expr.Induction
import MiniFun.Value.Equality

/-! # Equality in programs and in host programs

Programs compare integers with integers, truth values with truth values, and the empty list with
anything. Where the comparison has an answer it is the one of a host program, although the two are
computed apart and a host program finds more values equal: for it, values are equal that look the
same once their truth values are replaced by integers.
-/

namespace MiniFun

namespace Value

def Incomparable (left right : Value) : Prop :=
  left ≠ nil ∧ right ≠ nil ∧ ¬ (left.isInt ∧ right.isInt) ∧ ¬ (left.isBool ∧ right.isBool)

/-- What a host program compares: the value with integers in place of its truth values. There is
nothing to compare in a value with a closure among its parts. -/
def hostView? : Value → Option Value
  | int number => some (int number)
  | bool truth => some (int (boolNumber truth))
  | nil => some nil
  | pair head tail => do return pair (← head.hostView?) (← tail.hostView?)
  | closure .. => none
  | primitive function => some (primitive function)
  | failed message => some (failed message)

private theorem boolNumber_inj {first second : Bool} :
    boolNumber first = boolNumber second ↔ first = second := by
  cases first <;> cases second <;> decide

/-- Values are equal for a host program exactly if there is something to compare in them and they
look the same. -/
private theorem looselyEq_iff {left right : Value} : left.looselyEq right = true ↔
    left.hostView?.isSome ∧ left.hostView? = right.hostView? := by
  induction left generalizing right with
  | pair head tail ihHead ihTail =>
    cases right with
    | pair head' tail' =>
      rw [looselyEq, Bool.and_eq_true, ihHead, ihTail, hostView?, hostView?]
      -- The view of a pair is there if both parts have one.
      cases head.hostView? <;> cases tail.hostView? <;> cases head'.hostView? <;>
        cases tail'.hostView? <;> simp
    | _ =>
      cases viewed : head.hostView? <;> cases rest : tail.hostView? <;>
        simp [looselyEq, hostView?, viewed, rest]
  | int | bool | nil | closure | primitive | failed =>
    cases right with
    | pair head' tail' =>
      cases viewed : head'.hostView? <;> cases rest : tail'.hostView? <;>
        simp [looselyEq, hostView?, viewed, rest]
    | _ => simp [looselyEq, hostView?, boolNumber_inj]

private theorem looselyEq_iff_of_isSome {left right : Value}
    (viewed : left.hostView?.isSome ∨ right.hostView?.isSome) :
    left.looselyEq right = true ↔ left.hostView? = right.hostView? := by
  rw [looselyEq_iff, and_iff_right_iff_imp]
  intro same
  rwa [← same, or_self] at viewed

end Value

namespace Operator

open Value

theorem areEqual?_eq_none_iff {left right : Value} :
    areEqual? left right = none ↔ Incomparable left right := by
  cases left <;> cases right <;> simp [areEqual?, Incomparable, isInt, isBool]

theorem areEqual?_comm (left right : Value) : areEqual? left right = areEqual? right left := by
  cases left <;> cases right <;> simp [areEqual?, isNil, BEq.comm]

/-- Equal values are the same value, of a kind that can be compared with its own. -/
theorem areEqual?_eq_true_iff {left right : Value} : areEqual? left right = some true ↔
    left = right ∧ areEqual? left left ≠ none := by
  cases left <;> cases right <;> simp [areEqual?, isNil]

theorem equal_eq_true_iff {left right : Value} :
    Operator.apply .equal left right = .ok (.bool true) ↔
      left = right ∧ areEqual? left left ≠ none := by
  rw [← areEqual?_eq_true_iff, Operator.apply, onEquality]
  cases areEqual? left right <;> simp

/-- Where programs can compare two values, the answer is that of a host program. -/
theorem looselyEq_of_areEqual? {left right : Value} {answer : Bool}
    (compared : areEqual? left right = some answer) : left.looselyEq right = answer := by
  cases left <;> cases right <;> simp_all [areEqual?, isNil, looselyEq]

end Operator

open Operator Value

/-- Equality and inequality in programs. Both are refused for the same values, which are neither the
empty list nor of one kind that can be compared, and otherwise give opposite answers; the answer of
equality is that of a host program. The order of the operands makes no difference. Equality is
transitive. A host program finds values equal exactly if they look the same to it, with integers in
place of truth values, unless there are closures in both. -/
theorem equality_is_partial_equivalence (first second third : Value) :
    ((Operator.apply .equal first second = .error (.mistyped (.incomparable .equal)) ↔
        Incomparable first second) ∧
      (Operator.apply .notEqual first second = .error (.mistyped (.incomparable .notEqual)) ↔
        Incomparable first second) ∧
      (¬ Incomparable first second → ∃ answer,
        Operator.apply .equal first second = .ok (.bool answer) ∧
        Operator.apply .notEqual first second = .ok (.bool !answer) ∧
        first.looselyEq second = answer)) ∧
    (Operator.apply .equal first second = Operator.apply .equal second first ∧
      Operator.apply .notEqual first second = Operator.apply .notEqual second first) ∧
    (Operator.apply .equal first second = .ok (.bool true) →
      Operator.apply .equal second third = .ok (.bool true) →
        Operator.apply .equal first third = .ok (.bool true)) ∧
    (first.hostView?.isSome ∨ second.hostView?.isSome →
      (first.looselyEq second = true ↔ first.hostView? = second.hostView?)) := by
  refine ⟨?_, ?_, ?_, looselyEq_iff_of_isSome⟩
  · rw [← areEqual?_eq_none_iff, Operator.apply, Operator.apply, onEquality, onEquality]
    cases compared : areEqual? first second with
    | none => simp
    | some answer => simp [looselyEq_of_areEqual? compared]
  · rw [Operator.apply, Operator.apply, Operator.apply, Operator.apply, onEquality, onEquality,
      onEquality, onEquality, areEqual?_comm]
    exact ⟨rfl, rfl⟩
  · rw [equal_eq_true_iff, equal_eq_true_iff, equal_eq_true_iff]
    rintro ⟨rfl, reflexive⟩ ⟨rfl, -⟩
    exact ⟨rfl, reflexive⟩

end MiniFun
