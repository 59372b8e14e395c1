import MiniFun.Proofs.FrameReachability

/-! # Evaluation does not depend on the numbers of cells

A cell is known by its number, which is the number of cells that were there before it. Two stores
that hold the same under different numbers are renumberings of each other. Evaluation gives the same
in both, up to the numbers: it never looks at a number, and the cells that it reserves come to stand
for each other in the order in which they are reserved.

Only the cells that can be reached have to be renumbered properly. They are the live cells, and all
cells that are not reserved yet are counted among them.
-/

namespace MiniFun

mutual

/-- The value with other numbers for its cells. Code has none. -/
def Value.renumber (number : Nat → Nat) : Value → Value
  | .int value => .int value
  | .bool value => .bool value
  | .nil => .nil
  | .pair head tail => .pair (head.renumber number) (tail.renumber number)
  | .closure env param body => .closure (env.renumber number) param body
  | .primitive function => .primitive function
  | .failed message => .failed message

def Env.renumber (number : Nat → Nat) : Env → Env
  | .empty => .empty
  | .bind name value rest => .bind name (value.renumber number) (rest.renumber number)
  | .recursive name cell rest => .recursive name (number cell) (rest.renumber number)

end

/-! ## What numbers have no part in -/

section

variable {number : Nat → Nat}

mutual

/-- Nothing changes if the cells at hand keep their numbers. -/
theorem Value.renumber_eq_self : ∀ {value : Value}, value.Within (fun cell => number cell = cell) →
    value.renumber number = value
  | .pair head tail, ⟨first, second⟩ => by
    rw [Value.renumber, Value.renumber_eq_self first, Value.renumber_eq_self second]
  | .closure env param body, inside => by
    rw [Value.renumber, Env.renumber_eq_self inside]
  | .int _, _ | .bool _, _ | .nil, _ | .primitive _, _ | .failed _, _ => by rw [Value.renumber]

theorem Env.renumber_eq_self : ∀ {env : Env}, env.Within (fun cell => number cell = cell) →
    env.renumber number = env
  | .empty, _ => by rw [Env.renumber]
  | .bind name value rest, ⟨first, second⟩ => by
    rw [Env.renumber, Value.renumber_eq_self first, Env.renumber_eq_self second]
  | .recursive name cell rest, ⟨first, second⟩ => by
    rw [Env.renumber, Env.renumber_eq_self second, first]

end

@[simp]
theorem Value.text?_renumber (value : Value) : (value.renumber number).text? = value.text? := by
  induction value with
  | pair head tail ihHead ihTail => rw [renumber, text?, text?, ihHead, ihTail]
  | closure env param body => rw [renumber, text?, text?]
  | int | bool | nil | primitive | failed => rw [renumber]

@[simp]
theorem Value.isFunction_renumber (value : Value) :
    (value.renumber number).isFunction = value.isFunction := by
  cases value with
  | _ => rfl

@[simp]
theorem Value.isFailed_renumber (value : Value) :
    (value.renumber number).isFailed = value.isFailed := by
  cases value with
  | _ => rfl

private theorem Operator.onInts_renumber {operation : Int → Int → Value}
    (plain : ∀ a b, (operation a b).renumber number = operation a b) (left right : Value) :
    onInts operation (left.renumber number) (right.renumber number) =
      (onInts operation left right).map (Value.renumber number) := by
  cases left with
  | int a =>
    cases right with
    | int b => exact congrArg Except.ok (plain a b).symm
    | _ => rfl
  | _ => rfl

private theorem Operator.onBools_renumber (operation : Bool → Bool → Bool) (left right : Value) :
    onBools operation (left.renumber number) (right.renumber number) =
      (onBools operation left right).map (Value.renumber number) := by
  cases left with
  | bool a => cases right <;> rfl
  | _ => rfl

private theorem Operator.areEqual?_renumber (left right : Value) :
    areEqual? (left.renumber number) (right.renumber number) = areEqual? left right := by
  cases left <;> cases right <;> rfl

private theorem Operator.onEquality_renumber (op : Operator) (answer : Bool → Bool)
    (left right : Value) :
    onEquality op answer (left.renumber number) (right.renumber number) =
      (onEquality op answer left right).map (Value.renumber number) := by
  rw [onEquality, onEquality, areEqual?_renumber]
  cases areEqual? left right with
  | _ => rfl

/-- Operators do not look at numbers of cells. -/
theorem Operator.apply_renumber (op : Operator) (left right : Value) :
    op.apply (left.renumber number) (right.renumber number) =
      (op.apply left right).map (Value.renumber number) := by
  cases op with
  | cons => rfl
  | plus | minus | times | less | lessEqual => exact onInts_renumber (fun _ _ => rfl) left right
  | equal | notEqual => exact onEquality_renumber ..
  | both | either => exact onBools_renumber ..

/-- Functions of the host do not look at numbers of cells. -/
theorem Primitive.apply_renumber (primitive : Primitive) (argument : Value) :
    primitive.apply (argument.renumber number) =
      (primitive.apply argument).map (Value.renumber number) := by
  obtain ⟨function, _⟩ := primitive
  cases function with
  | identity | failing => rfl
  | head | tail => cases argument <;> rfl

end

/-! ## Renumbered stores -/

/-- The second store holds in the renumbered cell what the first one holds in the cell. -/
structure Renumbers (number : Nat → Nat) (live : Nat → Prop) (store store' : Store) : Prop where
  /-- The cells that are reserved next stand for each other. -/
  fresh : ∀ count, number (store.size + count) = store'.size + count
  unreserved : ∀ cell, store.size ≤ cell → live cell
  closed : Closed live store
  cells : ∀ cell, live cell →
    store'.read? (number cell) = (store.read? cell).map (Value.renumber number)

section

variable {number : Nat → Nat} {live : Nat → Prop} {store store' : Store}

namespace Renumbers

private theorem next (renumbers : Renumbers number live store store') :
    number store.size = store'.size := by
  simpa using renumbers.fresh 0

theorem reserve (renumbers : Renumbers number live store store') :
    Renumbers number live store.reserve store'.reserve where
  fresh count := by
    have shifted := renumbers.fresh (count + 1)
    simp only [Store.size_reserve]
    rwa [Nat.add_right_comm, Nat.add_assoc, Nat.add_right_comm, Nat.add_assoc]
  unreserved cell outside := by
    rw [Store.size_reserve] at outside
    exact renumbers.unreserved cell (by omega)
  closed cell value isLive read := by
    rw [Store.read?_reserve] at read
    exact renumbers.closed cell value isLive read
  cells cell isLive := by
    simpa only [Store.read?_reserve] using renumbers.cells cell isLive

/-- Cells that stand for each other may be filled with values that do. -/
theorem fill (injective : Function.Injective number)
    (renumbers : Renumbers number live store store') {cell : Nat} {value : Value}
    (reserved : cell < store.size) (reserved' : number cell < store'.size)
    (inside : value.Within live) :
    Renumbers number live (store.fill cell value)
      (store'.fill (number cell) (value.renumber number)) where
  fresh count := by simpa only [Store.size_fill] using renumbers.fresh count
  unreserved other outside := by
    rw [Store.size_fill] at outside
    exact renumbers.unreserved other outside
  closed other content isLive read := by
    by_cases same : cell = other
    · subst same
      rw [Store.read?_fill_self reserved] at read
      cases read
      exact inside
    · rw [Store.read?_fill_other same] at read
      exact renumbers.closed other content isLive read
  cells other isLive := by
    by_cases same : cell = other
    · subst same
      rw [Store.read?_fill_self reserved, Store.read?_fill_self reserved', Option.map_some]
    · rw [Store.read?_fill_other same, Store.read?_fill_other (injective.ne same)]
      exact renumbers.cells other isLive

/-- The bindings of a renumbered environment have renumbered values. -/
theorem entries (renumbers : Renumbers number live store store') {env : Env}
    (inside : env.Within live) :
    (env.renumber number).entries store' =
      (env.entries store).map fun entry => (entry.1, entry.2.map (Value.renumber number)) := by
  induction env with
  | empty => rw [Env.renumber, Env.entries, Env.entries, List.map_nil]
  | bind name value rest ih =>
    rw [Env.renumber, Env.entries, Env.entries, List.map_cons, ih inside.2, Option.map_some]
  | recursive name cell rest ih =>
    rw [Env.renumber, Env.entries, Env.entries, List.map_cons, ih inside.2,
      renumbers.cells cell inside.1]

/-- A lookup in a renumbered environment gives the renumbered value. -/
theorem find (renumbers : Renumbers number live store store') {env : Env}
    (inside : env.Within live) (name : String) :
    (env.renumber number).find store' name =
      (env.find store name).map (Value.renumber number) := by
  induction env with
  | empty => rfl
  | bind bound value rest ih =>
    rw [Env.renumber, Env.find, Env.find]
    split
    · rfl
    · exact ih inside.2
  | recursive bound cell rest ih =>
    rw [Env.renumber, Env.find, Env.find]
    split
    · rw [renumbers.cells cell inside.1]
      cases store.read? cell with
      | _ => rfl
    · exact ih inside.2

/-- Environments print the same whatever the numbers of their cells. -/
theorem envText?_eq (renumbers : Renumbers number live store store') {env : Env}
    (inside : env.Within live) : (env.renumber number).text? store' = env.text? store := by
  have shown : ∀ content : Option Value,
      Env.shownEntry? (content.map (Value.renumber number)) = Env.shownEntry? content := by
    intro content
    cases content with
    | none => rfl
    | some value => exact value.text?_renumber
  simp only [Env.text?, renumbers.entries inside, List.mapM_map, Function.comp_def, shown]

end Renumbers

/-! ## Results up to numbers -/

/-- The two results are the same failure, or values and stores that are renumberings. -/
inductive Tracks (number : Nat → Nat) (live : Nat → Prop) :
    EStateM.Result Failure Store Value → EStateM.Result Failure Store Value → Prop
  | ok {value : Value} {target target' : Store} (renumbers : Renumbers number live target target')
      (inside : value.Within live) :
      Tracks number live (.ok value target) (.ok (value.renumber number) target')
  | error (failure : Failure) {target target' : Store} :
      Tracks number live (.error failure target) (.error failure target')

namespace Tracks

theorem ofStep (renumbers : Renumbers number live store store') {step : Except Error Value}
    (inside : ∀ value, step = .ok value → value.Within live) :
    Tracks number live (Computation.ofStep step store)
      (Computation.ofStep (step.map (Value.renumber number)) store') := by
  cases step with
  | ok value => exact .ok renumbers (inside value rfl)
  | error cause => exact .error _

/-- Sequences follow each other if their parts do. -/
theorem bind {first first' : Computation Value} {second second' : Value → Computation Value}
    (front : Tracks number live (first store) (first' store'))
    (back : ∀ {value middle middle'}, first store = .ok value middle →
      first' store' = .ok (value.renumber number) middle' →
      Renumbers number live middle middle' → value.Within live →
        Tracks number live (second value middle) (second' (value.renumber number) middle')) :
    Tracks number live ((first >>= second) store) ((first' >>= second') store') := by
  generalize ran : first store = result at front
  generalize ran' : first' store' = result' at front
  cases front with
  | ok renumbers inside =>
    rw [bind_of_ok ran, bind_of_ok ran']
    exact back ran ran' renumbers inside
  | error failure =>
    rw [bind_of_error ran, bind_of_error ran']
    exact .error failure

end Tracks

/-! ## Evaluation keeps track -/

def KeepsTrack (number : Nat → Nat) (live : Nat → Prop) (limit : Nat) : Prop :=
  ∀ {store store' : Store} {env : Env} {expr : Expr}, Renumbers number live store store' →
    env.Within live → Tracks number live (evaluate limit env expr store)
      (evaluate limit (env.renumber number) expr store')

namespace KeepsTrack

variable {limit : Nat} (inner : KeepsTrack number live limit)
  (renumbers : Renumbers number live store store') {env : Env} (inside : env.Within live)
include inner renumbers inside

private theorem binary {op : Operator} {left right : Expr} :
    Tracks number live (evaluate (limit + 1) env (.binary op left right) store)
      (evaluate (limit + 1) (env.renumber number) (.binary op left right) store') := by
  refine .bind (inner renumbers inside) fun _ _ middle leftInside => ?_
  refine .bind (inner middle inside) fun _ _ last rightInside => ?_
  rw [Operator.apply_renumber]
  exact .ofStep last fun _ given => Operator.apply_within given leftInside rightInside

private theorem cond {test consequent alternative : Expr} :
    Tracks number live (evaluate (limit + 1) env (.cond test consequent alternative) store)
      (evaluate (limit + 1) (env.renumber number) (.cond test consequent alternative) store') := by
  refine .bind (inner renumbers inside) fun {testValue _ _} _ _ middle _ => ?_
  cases testValue with
  | bool value =>
    cases value with
    | true => exact inner middle inside
    | false => exact inner middle inside
  | _ => exact .error _

private theorem apply {function argument : Expr} :
    Tracks number live (evaluate (limit + 1) env (.apply function argument) store)
      (evaluate (limit + 1) (env.renumber number) (.apply function argument) store') := by
  refine .bind (inner renumbers inside) fun {functionValue _ _} _ _ middle functionInside => ?_
  simp only [Value.isFunction_renumber]
  split
  · refine .bind (inner middle inside) fun {argumentValue _ _} _ _ last argumentInside => ?_
    cases functionValue with
    | closure captured param body =>
      have extended : (captured.extend param argumentValue).Within live :=
        ⟨argumentInside, functionInside⟩
      exact inner last extended
    | primitive builtin =>
      simp only [Value.renumber, Value.applyWith, Primitive.apply_renumber]
      exact .ofStep last fun _ given => Primitive.apply_within given argumentInside
    | _ => exact .error _
  · exact .error _

/-- The cells of the two definitions stand for each other, since they are the next ones. -/
private theorem letIn (injective : Function.Injective number) {name : String} {bound body : Expr} :
    Tracks number live (evaluate (limit + 1) env (.letIn name bound body) store)
      (evaluate (limit + 1) (env.renumber number) (.letIn name bound body) store') := by
  have own : (Env.recursive name store.size env).Within live :=
    ⟨renumbers.unreserved _ (Nat.le_refl _), inside⟩
  have named : (Env.recursive name store.size env).renumber number =
      .recursive name store'.size (env.renumber number) := by
    rw [Env.renumber, renumbers.next]
  rw [evaluate_letIn, evaluate_letIn, ← named]
  refine .bind (inner renumbers.reserve own) fun {value _ _} ran ran' middle valueInside => ?_
  -- The cells were reserved before the bound expressions were evaluated, so both can be filled.
  have reserved := size_le_of_evaluate ran
  have reserved' := size_le_of_evaluate ran'
  rw [Store.size_reserve] at reserved reserved'
  rw [← renumbers.next] at reserved' ⊢
  exact inner (middle.fill injective reserved reserved' valueInside) own

end KeepsTrack

theorem keepsTrack (injective : Function.Injective number) (limit : Nat) :
    KeepsTrack number live limit := by
  induction limit with
  | zero => exact fun _ _ => .error _
  | succ limit ih =>
    intro store store' env expr renumbers inside
    cases expr with
    | int | bool | nil => exact .ok renumbers trivial
    | lambda param body => exact .ok renumbers inside
    | var name =>
      have looked : Tracks number live (Computation.ofStep (env.find store name) store)
          (Computation.ofStep ((env.renumber number).find store' name) store') := by
        rw [renumbers.find inside]
        exact .ofStep renumbers fun _ found => Env.find_within found renumbers.closed inside
      exact looked
    | binary op left right => exact ih.binary renumbers inside
    | unknown symbol left right =>
      refine .bind (ih renumbers inside) fun _ _ middle _ => ?_
      exact .bind (ih middle inside) fun _ _ _ _ => .error _
    | cond test consequent alternative => exact ih.cond renumbers inside
    | letIn name bound body => exact ih.letIn renumbers inside injective
    | apply function argument => exact ih.apply renumbers inside
    | embedded value =>
      rw [evaluate, evaluate, Value.refuse]
      cases value.form? with
      | _ => exact .error _

end

end MiniFun
