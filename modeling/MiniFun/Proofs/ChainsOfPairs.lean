import MiniFun.Proofs.EvaluationExactness
import MiniFun.Value.Chain

/-! # Chains of pairs

A list of values and the chain of pairs for it determine one another. Which values are such chains
can be said by following their tails: one comes to the empty list in the end. The items may be
anything, also chains themselves; only the tails are followed. The built-in functions find their way
in a chain as indices do in a list, except that the tail of the empty list is not refused.
-/

namespace MiniFun

namespace Value

/-- Along the tails of pairs one comes from the first value to the second, which is no pair. -/
inductive EndsIn : Value → Value → Prop
  | here {last : Value} (notPair : ∀ head tail, last ≠ pair head tail) : EndsIn last last
  | behind (head : Value) {tail last : Value} (rest : EndsIn tail last) :
      EndsIn (pair head tail) last

private theorem endsIn_iff {value last : Value} : value.EndsIn last ↔ value.chainEnd = last := by
  constructor
  · intro ends
    induction ends with
    | @here last notPair =>
      cases last with
      | pair head tail => exact (notPair head tail rfl).elim
      | _ => rfl
    | behind head _ ih => exact ih
  · rintro rfl
    induction value with
    | pair head tail _ ih => exact .behind head ih
    | _ => exact .here nofun

theorem exists_toList_iff {value : Value} :
    (∃ items, value.toList = .ok items) ↔ value.EndsIn nil := by
  simp [toList_eq_ok_iff, endsIn_iff]

/-- A chain that ends in the empty list is the chain for its items. -/
theorem ofList_items {value : Value} (proper : value.chainEnd = nil) :
    ofList value.items = value := by
  induction value with
  | nil => rfl
  | pair head tail _ ih => exact congrArg (pair head) (ih proper)
  | int | bool | closure | primitive | failed => cases proper

theorem ofList_of_toList {value : Value} {items : List Value} (listed : value.toList = .ok items) :
    ofList items = value := by
  obtain ⟨proper, rfl⟩ := toList_eq_ok_iff.mp listed
  exact ofList_items proper

/-- The refusal of another chain shows its end, unless that cannot be shown. -/
private theorem toList_of_endsIn {value last : Value} (ends : value.EndsIn last)
    (improper : last ≠ nil) :
    value.toList = .error (last.text?.elim .longInteger .improperList) := by
  rw [endsIn_iff] at ends
  rw [toList, ends]
  split
  · exact (improper rfl).elim
  · cases last.text? <;> rfl

end Value

/-! ## Built-in functions on chains -/

namespace Primitive

def applyTimes (builtin : Primitive) : Nat → Value → Except Error Value
  | 0, value => .ok value
  | count + 1, value => do builtin.applyTimes count (← builtin.apply value)

private theorem apply_tail_ofList (items : List Value) :
    tail.apply (.ofList items) = .ok (.ofList items.tail) := by
  cases items <;> rfl

private theorem applyTimes_tail_ofList (items : List Value) (count : Nat) :
    tail.applyTimes count (.ofList items) = .ok (.ofList (items.drop count)) := by
  induction count generalizing items with
  | zero => rfl
  | succ count ih =>
    rw [applyTimes, apply_tail_ofList]
    change tail.applyTimes count (.ofList items.tail) = _
    rw [ih, List.drop_tail]

/-- The head of a chain is the first item; only the empty list has none. -/
private theorem apply_head_ofList (items : List Value) :
    head.apply (.ofList items) = items.head?.elim (.error (.emptyList .head)) .ok := by
  cases items <;> rfl

end Primitive

open Value

/-- Lists of values and chains of pairs are converted without loss. What is made from a list gives
the list back. A value gives a list exactly if its tails end in the empty list, and is then what is
made from that list; otherwise it is refused as a bad value, and the message shows the end of the
tails. Only an end that cannot be shown, for an integer that is too long, is refused for that. The
tail that is taken any number of times is the list without so many items, empty from the length on,
and the head of it is the item at that index, if there is one. -/
theorem chains_convert_without_loss :
    (∀ items : List Value, (ofList items).toList = .ok items) ∧
    (∀ value : Value,
      ((∃ items, value.toList = .ok items) ↔ value.EndsIn .nil) ∧
      (∀ items, value.toList = .ok items → ofList items = value) ∧
      (¬ value.EndsIn .nil → ∃ last failure, value.EndsIn last ∧ value.toList = .error failure ∧
        failure.errorClass? = some .badValue ∧
        (∀ shown, last.text? = some shown →
          failure.message = "not a proper list: tail is " ++ shown) ∧
        (last.text? = none → failure = .longInteger))) ∧
    ∀ (items : List Value) (count : Nat), ∃ rest,
      Primitive.tail.applyTimes count (ofList items) = .ok rest ∧
      rest = ofList (items.drop count) ∧
      (items.length ≤ count → rest = .nil) ∧
      (∀ inside : count < items.length,
        Primitive.head.apply rest = .ok (items.get ⟨count, inside⟩)) ∧
      (items.length ≤ count → Primitive.head.apply rest = .error (.emptyList .head)) := by
  refine ⟨toList_ofList, fun value => ⟨exists_toList_iff, fun _ => ofList_of_toList, ?_⟩, ?_⟩
  · intro improper
    have ends : value.EndsIn value.chainEnd := endsIn_iff.mpr rfl
    have notNil : value.chainEnd ≠ .nil := by
      intro proper
      exact improper (proper ▸ ends)
    refine ⟨_, _, ends, toList_of_endsIn ends notNil, ?_⟩
    cases value.chainEnd.text? with
    | none => exact ⟨rfl, nofun, fun _ => rfl⟩
    | some shown =>
      refine ⟨rfl, ?_, nofun⟩
      rintro _ ⟨⟩
      rfl
  · intro items count
    refine ⟨_, Primitive.applyTimes_tail_ofList items count, rfl, ?_, ?_, ?_⟩
    · intro outside
      rw [List.drop_eq_nil_of_le outside]
      rfl
    · intro inside
      simp [Primitive.apply_head_ofList, inside]
    · intro outside
      simp [Primitive.apply_head_ofList, outside]

end MiniFun
