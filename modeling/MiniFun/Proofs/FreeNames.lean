import MiniFun.Proofs.FrameHistory

/-! # Free names and where they lead

The free names of an expression are those that its evaluation may look up in the environment around
it. A definition binds its name in the bound expression as well as in the body. Values embedded in
an expression are no code, and nothing is free in them.

An environment answers a lookup with its first binding of the name. `Env.locate` says which binding
that is, and leaves the value of a recursive one to the store. Evaluation lets the store grow: what
has a value keeps it, so that a lookup that succeeds goes on to succeed with the same value.
-/

namespace MiniFun

/-! ## Free names and parts of expressions -/

namespace Expr

/-- The name occurs in the expression outside of the scope of a binding of it. -/
def Free (name : String) : Expr → Prop
  | var other => other = name
  | binary _ left right | unknown _ left right => left.Free name ∨ right.Free name
  | cond test consequent alternative =>
    test.Free name ∨ consequent.Free name ∨ alternative.Free name
  | letIn other bound body => other ≠ name ∧ (bound.Free name ∨ body.Free name)
  | lambda param body => param ≠ name ∧ body.Free name
  | apply function argument => function.Free name ∨ argument.Free name
  | int _ | bool _ | nil | embedded _ => False

instance decidableFree (name : String) : (expr : Expr) → Decidable (expr.Free name)
  | var other => inferInstanceAs (Decidable (other = name))
  | binary _ left right | unknown _ left right =>
    have := left.decidableFree name
    have := right.decidableFree name
    inferInstanceAs (Decidable (left.Free name ∨ right.Free name))
  | cond test consequent alternative =>
    have := test.decidableFree name
    have := consequent.decidableFree name
    have := alternative.decidableFree name
    inferInstanceAs
      (Decidable (test.Free name ∨ consequent.Free name ∨ alternative.Free name))
  | letIn other bound body =>
    have := bound.decidableFree name
    have := body.decidableFree name
    inferInstanceAs (Decidable (other ≠ name ∧ (bound.Free name ∨ body.Free name)))
  | lambda param body =>
    have := body.decidableFree name
    inferInstanceAs (Decidable (param ≠ name ∧ body.Free name))
  | apply function argument =>
    have := function.decidableFree name
    have := argument.decidableFree name
    inferInstanceAs (Decidable (function.Free name ∨ argument.Free name))
  | int _ | bool _ | nil | embedded _ => inferInstanceAs (Decidable False)

end Expr

/-! ## Places of bindings -/

/-- Where the first binding of a name has its value. -/
inductive Place where
  /-- There is no binding. -/
  | missing
  | held (value : Value)
  | frame (cell : Nat)

def Env.locate (name : String) : Env → Place
  | empty => .missing
  | bind bound value rest => if bound = name then .held value else rest.locate name
  | recursive bound cell rest => if bound = name then .frame cell else rest.locate name

def Place.resolve (store : Store) (name : String) : Place → Except Error Value
  | missing => .error (.unbound name none)
  | held value => .ok value
  | frame cell =>
    match store.read? cell with
    | some value => .ok value
    | none => .error (.unbound name (some Error.selfReference))

namespace Env

theorem find_eq_resolve (store : Store) (name : String) (env : Env) :
    env.find store name = (env.locate name).resolve store name := by
  induction env with
  | empty => rfl
  | bind bound value rest ih | recursive bound cell rest ih =>
    rw [find, locate]
    split
    · rfl
    · exact ih

/-- A lookup fails because there is no binding, or because its cell is not filled yet. -/
theorem unbound_of_find {store : Store} {name : String} {env : Env} {cause : Error}
    (failed : env.find store name = .error cause) :
    cause = .unbound name none ∨ cause = .unbound name (some Error.selfReference) := by
  rw [find_eq_resolve] at failed
  cases located : env.locate name with
  | missing =>
    rw [located] at failed
    cases failed
    exact .inl rfl
  | held value =>
    rw [located] at failed
    cases failed
  | frame cell =>
    rw [located, Place.resolve] at failed
    split at failed
    · cases failed
    · cases failed
      exact .inr rfl

@[simp]
theorem locate_bind_self (name : String) (value : Value) (env : Env) :
    (bind name value env).locate name = .held value := by
  rw [locate, if_pos rfl]

@[simp]
theorem locate_recursive_self (name : String) (cell : Nat) (env : Env) :
    (recursive name cell env).locate name = .frame cell := by
  rw [locate, if_pos rfl]

theorem locate_bind_other {name other : String} (differs : name ≠ other) (value : Value)
    (env : Env) : (bind other value env).locate name = env.locate name := by
  rw [locate, if_neg differs.symm]

theorem locate_recursive_other {name other : String} (differs : name ≠ other) (cell : Nat)
    (env : Env) : (recursive other cell env).locate name = env.locate name := by
  rw [locate, if_neg differs.symm]

end Env

/-! ## Growing stores -/

/-- What has a value in the first store has the same value in the second. -/
def Store.Grows (store later : Store) : Prop :=
  ∀ cell value, store.read? cell = some value → later.read? cell = some value

namespace Store.Grows

theorem refl (store : Store) : store.Grows store :=
  fun _ _ known => known

theorem trans {first second third : Store} (front : first.Grows second)
    (back : second.Grows third) : first.Grows third :=
  fun cell value known => back cell value (front cell value known)

theorem reserve (store : Store) : store.Grows store.reserve := by
  intro cell value known
  rw [read?_reserve, known]

/-- Filling a cell that had no value takes none away. -/
theorem fill {store : Store} {cell : Nat} (unfilled : store.read? cell = none) (value : Value) :
    store.Grows (store.fill cell value) := by
  intro other content known
  have differs : cell ≠ other := by
    rintro rfl
    cases unfilled.symm.trans known
  rw [read?_fill_other differs, known]

/-- A value that was found before is found in the later store. -/
theorem find_ok {store later : Store} (grows : store.Grows later) {env : Env} {name : String}
    {value : Value} (known : env.find store name = .ok value) :
    env.find later name = .ok value := by
  rw [Env.find_eq_resolve] at known ⊢
  cases located : env.locate name with
  | missing =>
    rw [located] at known
    cases known
  | held held =>
    rw [located] at known
    exact known
  | frame cell =>
    rw [located, Place.resolve] at known
    split at known
    · rename_i content read
      rw [Place.resolve, grows cell content read]
      exact known
    · cases known

/-- A lookup that fails in the later store has failed before, and for the same reason. -/
theorem find_error {store later : Store} (grows : store.Grows later) {env : Env} {name : String}
    {cause : Error} (failed : env.find later name = .error cause) :
    env.find store name = .error cause := by
  rw [Env.find_eq_resolve] at failed ⊢
  cases located : env.locate name with
  | missing | held value =>
    rw [located] at failed
    exact failed
  | frame cell =>
    rw [located] at failed
    cases known : store.read? cell with
    | none =>
      rw [Place.resolve, known]
      cases read : later.read? cell with
      | none =>
        rw [Place.resolve, read] at failed
        exact failed
      | some value =>
        rw [Place.resolve, read] at failed
        cases failed
    | some value =>
      rw [Place.resolve, grows cell value known] at failed
      cases failed

end Store.Grows

section

variable {limit : Nat} {env : Env} {expr : Expr} {source target : Store} {value : Value}

/-- Evaluation only lets the store grow. -/
theorem grows_of_evaluate (success : evaluate limit env expr source = .ok value target) :
    source.Grows target := by
  obtain ⟨events, -, history⟩ := evaluate_recordedBy limit env expr source []
  rw [success] at history
  have replayed : replay events source = target := history.replayed
  intro cell content known
  rw [← replayed]
  exact history.orderly.keeps known

/-- Evaluation leaves the cells alone that were there before. -/
theorem read?_of_evaluate (success : evaluate limit env expr source = .ok value target) {cell : Nat}
    (older : cell < source.size) : target.read? cell = source.read? cell := by
  obtain ⟨events, -, history⟩ := evaluate_recordedBy limit env expr source []
  rw [success] at history
  exact history.read?_eq older

end

end MiniFun
