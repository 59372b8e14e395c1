import MiniFun.Error
import MiniFun.Expr.Printer

/-! # Chains of pairs as lists

A list is a chain of pairs that ends in the empty list. Every value is a chain in one way: its
items, and an end that is no pair.
-/

namespace MiniFun.Value

def ofList (items : List Value) : Value :=
  items.foldr pair nil

def items : Value → List Value
  | pair head tail => head :: tail.items
  | _ => []

/-- The value at the end of a chain of pairs, which is no pair itself. -/
def chainEnd : Value → Value
  | pair _ tail => tail.chainEnd
  | value => value

/-- The items of a list. A chain with another end is refused, and the failure shows that end. -/
def toList (value : Value) : Except Failure (List Value) :=
  match value.chainEnd with
  | nil => .ok value.items
  | last =>
    match last.text? with
    | some shown => .error (.improperList shown)
    | none => .error .longInteger

/-- A value is a list exactly if its chain ends in the empty list. -/
theorem toList_eq_ok_iff {value : Value} {list : List Value} :
    value.toList = .ok list ↔ value.chainEnd = nil ∧ value.items = list := by
  rw [toList]
  split
  · next proper => simp [proper]
  · next improper =>
    refine ⟨fun listed => ?_, fun proper => (improper proper.1).elim⟩
    split at listed <;> cases listed

/-- In front of a list there may be any item. -/
theorem toList_pair (head tail : Value) :
    (pair head tail).toList = List.cons head <$> tail.toList := by
  rw [toList, toList, chainEnd, items]
  split
  · rfl
  · split <;> rfl

theorem items_ofList (items : List Value) : (ofList items).items = items := by
  induction items with
  | nil => rfl
  | cons item items ih => exact congrArg (List.cons item) ih

theorem chainEnd_ofList (items : List Value) : (ofList items).chainEnd = nil := by
  induction items with
  | nil => rfl
  | cons item items ih => exact ih

theorem toList_ofList (items : List Value) : (ofList items).toList = .ok items := by
  rw [toList, chainEnd_ofList, items_ofList]

end MiniFun.Value
