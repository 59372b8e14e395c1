import MiniFun.Proofs.IndependentRuns

/-! # Environments as association lists

An environment is known by its entries, the names and values from front to back, where the value of
a recursive binding is missing until it is computed. Size, names and membership are those of the
list, and a lookup goes by the first entry of its name alone: if that one has no value, no other
entry of the name is looked at.

Building an environment puts entries in front of another one, which stays as it is. This holds for
definitions as well, whatever the host program computes in the meantime. It may look at everything,
fail, catch failures and define other names, but it reaches the cells of the store through
definitions only. So it fills no cell that was there before, and a definition that fails leaves
nothing behind but a cell that no entry of an older environment has.
-/

namespace MiniFun

/-! ## Entries -/

namespace Env

section

variable (store : Store)

@[simp]
theorem entries_extend (env : Env) (name : String) (value : Value) :
    (env.extend name value).entries store = (name, some value) :: env.entries store := rfl

theorem entries_ofBindings (bindings : List (String × Value)) :
    (ofBindings bindings).entries store =
      bindings.map fun binding => (binding.1, some binding.2) := by
  induction bindings with
  | nil => rfl
  | cons binding bindings ih => exact congrArg (_ :: ·) ih

theorem length_entries (env : Env) : (env.entries store).length = env.size := by
  induction env with
  | empty => rfl
  | bind _ _ _ ih | recursive _ _ _ ih => rw [entries, size, List.length_cons, ih]

theorem names_entries (env : Env) : (env.entries store).map Prod.fst = env.names := by
  induction env with
  | empty => rfl
  | bind _ _ _ ih | recursive _ _ _ ih => rw [entries, names, List.map_cons, ih]

theorem isEmpty_entries (env : Env) : (env.entries store).isEmpty = env.isEmpty := by
  cases env with
  | _ => rfl

theorem contains_iff_mem_names (env : Env) (name : String) :
    env.contains name = true ↔ name ∈ env.names := by
  induction env with
  | empty => simp [contains, names]
  | bind bound _ _ ih | recursive bound _ _ ih =>
    rw [contains, names, Bool.or_eq_true, beq_iff_eq, ih, List.mem_cons, eq_comm]

/-- What looking the name up gives if its first entry is as given. -/
def answer (name : String) : Option (Option Value) → Except Error Value
  | some (some value) => .ok value
  | some none => .error (.unbound name (some Error.selfReference))
  | none => .error (.unbound name none)

/-- A lookup goes by the first entry of the name. -/
theorem find_eq_answer (env : Env) (name : String) :
    env.find store name = answer name ((env.entries store).lookup name) := by
  induction env with
  | empty => rfl
  | bind bound value rest ih =>
    rw [find, entries, List.lookup_cons]
    by_cases same : bound = name
    · rw [if_pos same, beq_iff_eq.mpr same.symm, answer]
    · rw [if_neg same, beq_false_of_ne (Ne.symm same), ih]
  | recursive bound cell rest ih =>
    rw [find, entries, List.lookup_cons]
    by_cases same : bound = name
    · rw [if_pos same, beq_iff_eq.mpr same.symm]
      cases store.read? cell with
      | none => rfl
      | some value => rfl
    · rw [if_neg same, beq_false_of_ne (Ne.symm same), ih]

private theorem lookup_eq_answer (env : Env) (name : String) :
    env.lookup name store =
      Computation.ofStep (answer name ((env.entries store).lookup name)) store := by
  rw [← find_eq_answer]
  rfl

private theorem contains_eq_false_iff (env : Env) (name : String) :
    env.contains name = false ↔ (env.entries store).lookup name = none := by
  rw [← Bool.not_eq_true, contains_iff_mem_names, ← names_entries store, List.lookup_eq_none_iff]
  simp only [List.mem_map, not_exists, not_and, bne_iff_ne, ne_eq, eq_comm (a := name)]

end

/-- The observations of an environment are those of the list of its entries. -/
structure IsAssociationList (store : Store) (env : Env) : Prop where
  size_eq : env.size = (env.entries store).length
  names_eq : env.names = (env.entries store).map Prod.fst
  isEmpty_eq : env.isEmpty = (env.entries store).isEmpty
  contains_iff : ∀ name, env.contains name = true ↔ ∃ entry ∈ env.entries store, entry.1 = name
  found : ∀ name value, (env.entries store).lookup name = some (some value) →
    env.lookup name store = .ok value store
  /-- Whatever stands behind the first entry of the name, it does not count. -/
  unfilled : ∀ name, (env.entries store).lookup name = some none →
    env.lookup name store =
      .error (.error (.unbound name (some "used in its own definition"))) store
  missing_iff : ∀ name, env.lookup name store = .error (.error (.unbound name none)) store ↔
    env.contains name = false

theorem isAssociationList (store : Store) (env : Env) : env.IsAssociationList store where
  size_eq := (env.length_entries store).symm
  names_eq := (env.names_entries store).symm
  isEmpty_eq := (env.isEmpty_entries store).symm
  contains_iff name := by
    rw [contains_iff_mem_names, ← env.names_entries store, List.mem_map]
  found name value first := by
    rw [lookup_eq_answer, first]
    rfl
  unfilled name first := by
    rw [lookup_eq_answer, first]
    rfl
  missing_iff name := by
    rw [lookup_eq_answer, contains_eq_false_iff store]
    cases (env.entries store).lookup name with
    | none => exact iff_of_true rfl rfl
    | some content =>
      cases content with
      | none => exact iff_of_false (fun same => by cases same) (Option.some_ne_none _)
      | some value => exact iff_of_false (fun same => by cases same) (Option.some_ne_none _)

end Env

/-! ## What a host program can do -/

/-- What a host program can do between two operations on an environment. It looks at the store as
it likes, fails, catches failures and makes definitions, but has no other hold on the cells. -/
inductive Hosted : {α : Type} → Computation α → Prop
  | look : Hosted get
  | give {α : Type} (result : Except Failure α) : Hosted (Computation.ofExcept result)
  | bind {α β : Type} {computation : Computation α} {next : α → Computation β}
      (front : Hosted computation) (back : ∀ result, Hosted (next result)) :
      Hosted (computation >>= next)
  | catching {α : Type} {computation : Computation α} {handler : Failure → Computation α}
      (front : Hosted computation) (back : ∀ failure, Hosted (handler failure)) :
      Hosted (tryCatch computation handler)
  | define (env : Env) (name : String) {compute : Env → Computation Value}
      (inside : ∀ inner, Hosted (compute inner)) : Hosted (env.define name compute)

namespace Env

variable {store middle : Store} {env : Env} {name : String} {compute : Env → Computation Value}

private theorem define_eq (store : Store) (env : Env) (name : String)
    (compute : Env → Computation Value) :
    env.define name compute store =
      (do
        let value ← compute (.recursive name store.size env)
        modify fun (middle : Store) => middle.fill store.size value
        return recursive name store.size env) store.reserve := rfl

private theorem define_of_ok {value : Value}
    (computed : compute (.recursive name store.size env) store.reserve = .ok value middle) :
    env.define name compute store =
      .ok (.recursive name store.size env) (middle.fill store.size value) :=
  (define_eq ..).trans (bind_of_ok computed)

private theorem define_of_error {failure : Failure}
    (failed : compute (.recursive name store.size env) store.reserve = .error failure middle) :
    env.define name compute store = .error failure middle :=
  (define_eq ..).trans (bind_of_error failed)

end Env

section

variable {α : Type} {computation : Computation α} {handler : Failure → Computation α}
  {store middle : Store}

-- What is caught is the end of the computation in this store, so that it can be put in its place.
private theorem tryCatch_of_ok {result : α} (success : computation store = .ok result middle) :
    tryCatch computation handler store = .ok result middle :=
  congrArg (fun ended => EStateM.tryCatch (fun _ => ended) handler store) success

private theorem tryCatch_of_error {failure : Failure}
    (failed : computation store = .error failure middle) :
    tryCatch computation handler store = handler failure middle :=
  congrArg (fun ended => EStateM.tryCatch (fun _ => ended) handler store) failed

end

/-- The later store comes from the first one by definitions that begin and end. Those that end began
on the way. -/
inductive Store.Develops (store : Store) : Store → Prop
  | refl : store.Develops store
  | reserve {later : Store} (before : store.Develops later) : store.Develops later.reserve
  | fill {later : Store} {cell : Nat} (fresh : store.size ≤ cell) (value : Value)
      (before : store.Develops later) : store.Develops (later.fill cell value)

namespace Store.Develops

theorem extendedBy {store later : Store} (develops : store.Develops later) :
    store.ExtendedBy later := by
  induction develops with
  | refl => exact .refl store
  | @reserve later _ ih =>
    refine ⟨?_, fun older => ?_⟩
    · rw [size_reserve]
      exact Nat.le_succ_of_le ih.size_le
    · rw [read?_reserve, ih.read?_eq older]
  | fill fresh value _ ih =>
    refine ⟨?_, fun older => ?_⟩
    · rw [size_fill]
      exact ih.size_le
    · rw [read?_fill_other (Nat.ne_of_gt (Nat.lt_of_lt_of_le older fresh)), ih.read?_eq older]

theorem trans {first second third : Store} (front : first.Develops second)
    (back : second.Develops third) : first.Develops third := by
  induction back with
  | refl => exact front
  | reserve _ ih => exact ih.reserve
  | fill fresh value _ ih => exact ih.fill (Nat.le_trans front.extendedBy.size_le fresh) value

private theorem of_reserve {store later : Store} (develops : store.reserve.Develops later) :
    store.Develops later :=
  (refl.reserve : store.Develops store.reserve).trans develops

end Store.Develops

namespace Hosted

theorem develops {α : Type} {computation : Computation α} (hosted : Hosted computation)
    (store : Store) : store.Develops (storeAfter (computation store)) := by
  induction hosted generalizing store with
  | look => exact .refl
  | give result =>
    cases result with
    | ok value => exact .refl
    | error failure => exact .refl
  | @bind _ _ computation next _ _ front back =>
    have first := front store
    cases ran : computation store with
    | ok result middle =>
      rw [ran] at first
      rw [bind_of_ok ran]
      exact first.trans (back result middle)
    | error failure middle =>
      rw [ran] at first
      rw [bind_of_error ran]
      exact first
  | @catching _ computation handler _ _ front back =>
    have first := front store
    cases ran : computation store with
    | ok result middle =>
      rw [ran] at first
      rw [tryCatch_of_ok ran]
      exact first
    | error failure middle =>
      rw [ran] at first
      rw [tryCatch_of_error ran]
      exact first.trans (back failure middle)
  | @define env name compute _ inside =>
    -- The cell of this definition is the first one that the store does not have yet.
    have first := (inside (.recursive name store.size env) store.reserve).of_reserve
    cases ran : compute (.recursive name store.size env) store.reserve with
    | ok value middle =>
      rw [ran] at first
      rw [Env.define_of_ok ran]
      exact first.fill (Nat.le_refl _) value
    | error failure middle =>
      rw [ran] at first
      rw [Env.define_of_error ran]
      exact first

theorem pure {α : Type} (result : α) : Hosted (Pure.pure result : Computation α) :=
  .give (.ok result)

theorem throw {α : Type} (failure : Failure) :
    Hosted (MonadExcept.throw failure : Computation α) :=
  .give (.error failure)

theorem ofStep {α : Type} (step : Except Error α) : Hosted (Computation.ofStep step) := by
  cases step with
  | ok result => exact .pure result
  | error cause => exact .throw (.error cause)

private theorem refuse (value : Value) : Hosted value.refuse := by
  rw [Value.refuse]
  refine .bind ?_ fun _ => .throw _
  cases value.form? with
  | none => exact .throw _
  | some node => exact .pure node

/-- Evaluation touches the store as a host program does. -/
theorem evaluate (limit : Nat) (env : Env) (expr : Expr) :
    Hosted (MiniFun.evaluate limit env expr) := by
  induction limit generalizing env expr with
  | zero => exact .throw _
  | succ limit ih =>
    cases expr with
    | int | bool | nil | lambda => exact .pure _
    | var name => exact .bind .look fun store => .ofStep (env.find store name)
    | binary op left right =>
      exact .bind (ih env left) fun _ => .bind (ih env right) fun _ => .ofStep _
    | unknown symbol left right =>
      exact .bind (ih env left) fun _ => .bind (ih env right) fun _ => .throw _
    | cond test consequent alternative =>
      refine .bind (ih env test) fun testValue => ?_
      cases testValue with
      | bool value =>
        cases value with
        | false => exact ih env alternative
        | true => exact ih env consequent
      | _ => exact .throw _
    | letIn name bound body =>
      exact .bind (.define env name fun inner => ih inner bound) fun inner => ih inner body
    | apply function argument =>
      refine .bind (ih env function) fun functionValue => ?_
      cases functionValue with
      | closure captured param body => exact .bind (ih env argument) fun _ => ih _ body
      | primitive builtin => exact .bind (ih env argument) fun _ => .ofStep _
      | _ => exact .throw _
    | embedded value => exact .refuse value

end Hosted

/-! ## Environments that a host program can build -/

/-- The environments that can be built with the operations, each with a store in which it can be
seen: while the value of a recursive binding is computed, and at any time afterwards. -/
inductive Built : Store → Env → Prop
  | empty (store : Store) : Built store .empty
  | ofBindings (store : Store) (bindings : List (String × Value)) :
      Built store (.ofBindings bindings)
  | extend {store : Store} {env : Env} (name : String) (value : Value) (rest : Built store env) :
      Built store (env.extend name value)
  /-- What the computation of the value is given. -/
  | inside {store target : Store} {env inner : Env} {name : String} {cell : Nat}
      (rest : Built store env) (reserved : env.reserve name store = .ok (cell, inner) target) :
      Built target inner
  /-- A definition begins, here or elsewhere. -/
  | begun {store : Store} {env : Env} (before : Built store env) : Built store.reserve env
  /-- A definition ends. -/
  | ended {store : Store} {env : Env} (cell : Nat) (value : Value) (before : Built store env) :
      Built (store.fill cell value) env

def Env.cells : Env → List Nat
  | empty => []
  | bind _ _ rest => rest.cells
  | recursive _ cell rest => cell :: rest.cells

private theorem Env.cells_ofBindings (bindings : List (String × Value)) :
    (ofBindings bindings).cells = [] := by
  induction bindings with
  | nil => rfl
  | cons _ _ ih => exact ih

/-- The entries of an environment depend on its own cells alone. -/
private theorem Env.entries_congr {store later : Store} {env : Env}
    (same : ∀ cell ∈ env.cells, later.read? cell = store.read? cell) :
    env.entries later = env.entries store := by
  induction env with
  | empty => rfl
  | bind _ _ _ ih => rw [entries, entries, ih same]
  | recursive _ cell _ ih =>
    rw [cells, List.forall_mem_cons] at same
    rw [entries, entries, same.1, ih same.2]

namespace Built

variable {store later : Store} {env : Env}

theorem lt_size (built : Built store env) : ∀ cell ∈ env.cells, cell < store.size := by
  induction built with
  | empty => simp [Env.cells]
  | ofBindings => simp [Env.cells_ofBindings]
  | extend _ _ _ ih => exact ih
  | inside _ reserved ih =>
    cases reserved
    rw [Store.size_reserve, Env.cells, List.forall_mem_cons]
    exact ⟨Nat.lt_succ_self _, fun cell member => Nat.lt_succ_of_lt (ih cell member)⟩
  | begun _ ih =>
    rw [Store.size_reserve]
    exact fun cell member => Nat.lt_succ_of_lt (ih cell member)
  | ended _ _ _ ih =>
    rw [Store.size_fill]
    exact ih

theorem entries_eq (built : Built store env) (extended : store.ExtendedBy later) :
    env.entries later = env.entries store :=
  Env.entries_congr fun cell member => extended.read?_eq (built.lt_size cell member)

theorem develops (built : Built store env) (develops : store.Develops later) :
    Built later env := by
  induction develops with
  | refl => exact built
  | reserve _ ih => exact ih.begun
  | fill _ value _ ih => exact ih.ended _ value

end Built

/-! ## Growing in front -/

/-- The environment is built in front of another one, whose entries are still those that it had in
the earlier store. -/
structure Env.InFront (store : Store) (env : Env) (name : String) (content : Option Value)
    (later : Store) (front : Env) : Prop where
  built : Built later front
  entries_eq : front.entries later = (name, content) :: env.entries store
  kept : env.entries later = env.entries store

/-- Building on an environment puts entries in front of it, and nothing changes those it has. -/
structure Env.GrowsInFront (store : Store) (env : Env) : Prop where
  extend : ∀ name value, env.InFront store name (some value) store (env.extend name value)
  /-- The new entry has no value while the value is computed, nor if there is none in the end. -/
  define : ∀ name (compute : Env → Computation Value), (∀ inner, Hosted (compute inner)) →
    ∃ inner, env.reserve name store = .ok (store.size, inner) store.reserve ∧
      env.InFront store name none store.reserve inner ∧
      match compute inner store.reserve with
      | .ok value middle => env.InFront store name none middle inner ∧
          ∃ target, env.define name compute store = .ok inner target ∧
            env.InFront store name (some value) target inner
      | .error failure target => env.define name compute store = .error failure target ∧
          env.InFront store name none target inner
  /-- What the host program does otherwise leaves the environment as it is. -/
  hosted : ∀ {α : Type} {computation : Computation α}, Hosted computation →
    Built (storeAfter (computation store)) env ∧
      env.entries (storeAfter (computation store)) = env.entries store

namespace Built

variable {store later : Store} {env : Env}

private theorem inFront_recursive (built : Built store env) (name : String)
    (inside : Built later (.recursive name store.size env)) (extended : store.ExtendedBy later) :
    env.InFront store name (later.read? store.size) later (.recursive name store.size env) where
  built := inside
  entries_eq := by rw [Env.entries, built.entries_eq extended]
  kept := built.entries_eq extended

theorem growsInFront (built : Built store env) : env.GrowsInFront store where
  extend name value := ⟨built.extend name value, env.entries_extend store name value, rfl⟩
  hosted hosted :=
    ⟨built.develops (hosted.develops store), built.entries_eq (hosted.develops store).extendedBy⟩
  define name compute hosted := by
    let inner : Env := .recursive name store.size env
    have inside : Built store.reserve inner := built.inside rfl
    have reserved : store.size < store.reserve.size := by
      rw [Store.size_reserve]
      exact Nat.lt_succ_self _
    -- Until it is filled, the cell is unfilled at every moment.
    have pending : ∀ {middle}, store.reserve.Develops middle →
        env.InFront store name none middle inner := by
      intro middle develops
      have unfilled : middle.read? store.size = none := by
        rw [develops.extendedBy.read?_eq reserved, Store.read?_reserve,
          Store.read?_eq_none (Nat.le_refl _)]
      exact unfilled ▸ built.inFront_recursive name (inside.develops develops)
        develops.of_reserve.extendedBy
    refine ⟨inner, rfl, pending .refl, ?_⟩
    have computed := (hosted inner).develops store.reserve
    cases ran : compute inner store.reserve with
    | ok value middle =>
      rw [ran] at computed
      refine ⟨pending computed, _, Env.define_of_ok ran, ?_⟩
      have develops := computed.of_reserve.fill (Nat.le_refl _) value
      have filled : (middle.fill store.size value).read? store.size = some value :=
        Store.read?_fill_self (Nat.lt_of_lt_of_le reserved computed.extendedBy.size_le) value
      exact filled ▸ built.inFront_recursive name ((inside.develops computed).ended _ value)
        develops.extendedBy
    | error failure target =>
      rw [ran] at computed
      exact ⟨Env.define_of_error ran, pending computed⟩

end Built

/-- Environments are association lists in which a value can be missing for a time. Whatever a host
program builds, it is read as the list of its entries, and building on it puts entries in front. -/
theorem environments_are_association_lists :
    (∀ bindings store, (Env.ofBindings bindings).entries store =
        bindings.map fun binding => (binding.1, some binding.2)) ∧
      ∀ store env, Built store env → env.IsAssociationList store ∧ env.GrowsInFront store :=
  ⟨fun bindings store => Env.entries_ofBindings store bindings,
    fun store env built => ⟨env.isAssociationList store, built.growsInFront⟩⟩

/-- In `x = 1` with a second definition of `x` under way, the name has no value. A third definition
whose value is to be that of `x` fails, and the entries are what they were. -/
theorem unfilled_entry_shadows :
    let env : Env := .recursive "x" 0 (.ofBindings [("x", .int 1)])
    let unbound : Failure := .error (.unbound "x" (some "used in its own definition"))
    Built Store.empty.reserve env ∧
      env.entries Store.empty.reserve = [("x", none), ("x", some (.int 1))] ∧
      env.lookup "x" Store.empty.reserve = .error unbound Store.empty.reserve ∧
      ∃ target, env.define "y" (fun inner => evaluate 1 inner (.var "x")) Store.empty.reserve =
          .error unbound target ∧
        env.entries target = [("x", none), ("x", some (.int 1))] := by
  intro env unbound
  have built : Built Store.empty.reserve env := .inside (.ofBindings Store.empty _) rfl
  obtain ⟨reads, grows⟩ := environments_are_association_lists.2 _ _ built
  refine ⟨built, rfl, reads.unfilled "x" rfl, ?_⟩
  obtain ⟨inner, reserved, -, outcome⟩ :=
    grows.define "y" (fun inner => evaluate 1 inner (.var "x")) fun inner => .evaluate 1 inner _
  cases reserved
  exact ⟨_, outcome.1, outcome.2.kept⟩

end MiniFun
