import MiniFun.Error
import MiniFun.Expr

/-! # The store

The store holds the values of recursive bindings, one cell for each. A cell is reserved before the
value is computed and filled once it is there. Cells are never given back, so that a closure finds
the value for which it was made for as long as it lives.
-/

namespace MiniFun

/-- The cells of recursive bindings, each unfilled or filled. -/
structure Store where
  cells : Array (Option Value)
deriving DecidableEq, Repr, Inhabited

namespace Store

def empty : Store := ⟨#[]⟩

/-- The number of cells, which is also the cell that will be reserved next. -/
def size (store : Store) : Nat := store.cells.size

/-- The value of a cell; `none` if it is unfilled. -/
def read? (store : Store) (cell : Nat) : Option Value :=
  store.cells[cell]?.join

/-- The store with one more cell, unfilled. -/
def reserve (store : Store) : Store :=
  ⟨store.cells.push none⟩

def fill (store : Store) (cell : Nat) (value : Value) : Store :=
  ⟨store.cells.setIfInBounds cell (some value)⟩

end Store

/-- A computation that works on the store. Cells that it reserved or filled stay so when it
fails. -/
abbrev Computation := EStateM Failure Store

namespace Computation

/-- Gives the result of something that does not touch the store. -/
def ofExcept {α : Type} : Except Failure α → Computation α
  | .ok result => return result
  | .error failure => throw failure

def ofStep {α : Type} : Except Error α → Computation α
  | .ok result => return result
  | .error cause => throw (.error cause)

/-- Gives a text, unless an integer in it is too long to be written. -/
def ofText : Option String → Computation String
  | some text => return text
  | none => throw .longInteger

/-- Continues with the handler after an error. Limits of the interpreter are no errors. -/
def recover {α : Type} (computation : Computation α) (handler : Error → Computation α) :
    Computation α := fun store =>
  match computation store with
  | .error (.error cause) store => handler cause store
  | result => result

end Computation

end MiniFun
