import MiniFun.Proofs.LexicalScoping
import MiniFun.Proofs.Renumbering

/-! # Runs of an interpreter are independent

All runs of an interpreter share one store, and each leaves its cells behind, unfilled ones as well
if it failed within a definition. None of this can be seen. A run leaves the older cells as they
are, so what was within reach before is the same afterwards: the environment of the interpreter, and
the values of earlier runs. And a run gives what it would have given as the first one, except that
the cells that it reserves have other numbers.
-/

namespace MiniFun

/-! ## Stores that have more cells -/

/-- The later store has the same in the cells of the first one, and may have more cells. -/
structure Store.ExtendedBy (store later : Store) : Prop where
  size_le : store.size ≤ later.size
  read?_eq : ∀ {cell}, cell < store.size → later.read? cell = store.read? cell

namespace Store.ExtendedBy

theorem refl (store : Store) : store.ExtendedBy store :=
  ⟨Nat.le_refl _, fun _ => rfl⟩

theorem trans {first second third : Store} (front : first.ExtendedBy second)
    (back : second.ExtendedBy third) : first.ExtendedBy third := by
  refine ⟨Nat.le_trans front.size_le back.size_le, fun older => ?_⟩
  rw [back.read?_eq (Nat.lt_of_lt_of_le older front.size_le), front.read?_eq older]

/-- Every store has more cells than the empty one. -/
theorem empty (later : Store) : Store.empty.ExtendedBy later :=
  ⟨Nat.zero_le _, fun older => absurd older (Nat.not_lt_zero _)⟩

theorem evaluate (limit : Nat) (env : Env) (expr : Expr) (store : Store) :
    store.ExtendedBy (storeAfter (MiniFun.evaluate limit env expr store)) := by
  obtain ⟨events, -, history⟩ := evaluate_recordedBy limit env expr store []
  exact ⟨history.size_le, history.read?_eq⟩

end Store.ExtendedBy

/-! ## What is the same in a later store -/

/-- From the node, the same can be reached in both stores, and every environment on the way has the
same bindings, gives the same for each name, and prints the same. -/
structure Undisturbed (store later : Store) (node : Node) : Prop where
  leads_iff : ∀ other, Leads later node other ↔ Leads store node other
  entries : ∀ env, Leads store node (.env env) → env.entries later = env.entries store
  find : ∀ env, Leads store node (.env env) → ∀ name, env.find later name = env.find store name
  text : ∀ env, Leads store node (.env env) → env.text? later = env.text? store

namespace Reserved

variable {store later : Store}

private theorem leads {node other : Node} (reserved : Reserved store node)
    (leads : Leads store node other) : Reserved store other :=
  fun cell reaches => reserved cell (leads.reaches reaches)

private theorem holds_iff {node other : Node} (reserved : Reserved store node)
    (extended : store.ExtendedBy later) : Holds later node other ↔ Holds store node other := by
  constructor
  · intro holds
    obtain same | ⟨name, cell, rest, value, rfl, rfl, read⟩ := holds.elsewhere store
    · exact same
    · rw [extended.read?_eq (reserved cell (.frame ..))] at read
      exact .inFrame read
  · intro holds
    obtain same | ⟨name, cell, rest, value, rfl, rfl, read⟩ := holds.elsewhere later
    · exact same
    · rw [← extended.read?_eq (reserved cell (.frame ..))] at read
      exact .inFrame read

private theorem leads_iff {node other : Node} (reserved : Reserved store node)
    (extended : store.ExtendedBy later) : Leads later node other ↔ Leads store node other := by
  constructor
  · intro leads
    induction leads with
    | refl => exact .refl
    | tail _ holds ih => exact ih.tail (((reserved.leads ih).holds_iff extended).mp holds)
  · intro leads
    induction leads with
    | refl => exact .refl
    | tail front holds ih => exact ih.tail (((reserved.leads front).holds_iff extended).mpr holds)

private theorem entries_eq {env : Env} (reserved : Reserved store (.env env))
    (extended : store.ExtendedBy later) : env.entries later = env.entries store := by
  induction env with
  | empty => rfl
  | bind name value rest ih =>
    rw [Env.entries, Env.entries, ih (reserved.leads (.single (.behindBound ..)))]
  | recursive name cell rest ih =>
    rw [Env.entries, Env.entries, ih (reserved.leads (.single (.behindRecursive ..))),
      extended.read?_eq (reserved cell (.frame ..))]

private theorem find_eq {env : Env} (reserved : Reserved store (.env env))
    (extended : store.ExtendedBy later) (name : String) :
    env.find later name = env.find store name := by
  induction env with
  | empty => rfl
  | bind bound value rest ih =>
    rw [Env.find, Env.find, ih (reserved.leads (.single (.behindBound ..)))]
  | recursive bound cell rest ih =>
    rw [Env.find, Env.find, ih (reserved.leads (.single (.behindRecursive ..))),
      extended.read?_eq (reserved cell (.frame ..))]

/-- Cells that are reserved later do not disturb what is reserved already. -/
theorem undisturbed {node : Node} (reserved : Reserved store node)
    (extended : store.ExtendedBy later) : Undisturbed store later node where
  leads_iff _ := reserved.leads_iff extended
  entries _ leads := (reserved.leads leads).entries_eq extended
  find _ leads := (reserved.leads leads).find_eq extended
  text env leads := by rw [Env.text?, Env.text?, (reserved.leads leads).entries_eq extended]

theorem mono {node : Node} (reserved : Reserved store node) (extended : store.ExtendedBy later) :
    Reserved later node := by
  intro cell reaches
  obtain ⟨name, rest, leads⟩ := reaches.leads
  have older := reserved.leads ((reserved.leads_iff extended).mp leads) cell (.frame ..)
  exact Nat.lt_of_lt_of_le older extended.size_le

/-- What evaluation gives back reaches cells only that are reserved by then. -/
theorem of_evaluate {limit : Nat} {env : Env} {expr : Expr} {value : Value} {target : Store}
    (reserved : Reserved store (.env env))
    (success : evaluate limit env expr store = .ok value target) :
    Reserved target (.value value) := by
  have inside : env.Within (Reaches store (.env env)) :=
    env_within_of_reaches env fun _ reached => reached
  obtain ⟨more, growth, result⟩ :=
    keepsToLive limit success (closed_reaches store (.env env)) inside
  intro cell reaches
  -- A cell with a value is reserved, and one without was there before the evaluation.
  cases read : target.read? cell with
  | none =>
    obtain ⟨reached, -⟩ := growth.pending cell (reaches.live growth.closed result) read
    exact Nat.lt_of_lt_of_le (reserved cell reached) (size_le_of_evaluate success)
  | some content =>
    refine Nat.lt_of_not_le fun outside => ?_
    cases (Store.read?_eq_none outside).symm.trans read

end Reserved

/-! ## The same run in a later store -/

/-- The number of a cell if so many cells are put in front of the cells from the given one on. -/
def shiftFrom (base offset cell : Nat) : Nat :=
  if cell < base then cell else cell + offset

private theorem shiftFrom_of_lt {base offset cell : Nat} (older : cell < base) :
    shiftFrom base offset cell = cell :=
  if_pos older

private theorem shiftFrom_injective (base offset : Nat) :
    Function.Injective (shiftFrom base offset) := by
  intro first second same
  unfold shiftFrom at same
  split at same <;> split at same <;> omega

/-- The two results are the same but for the numbers of cells: a failure and the same failure, or a
value and its renumbering in a store that holds the same in renumbered cells. The values print the
same, and so do all environments that they have captured. -/
inductive Renumbered (number : Nat → Nat) :
    EStateM.Result Failure Store Value → EStateM.Result Failure Store Value → Prop
  | ok {value : Value} {target target' : Store}
      (cells : ∀ cell, Reaches target (.value value) cell →
        target'.read? (number cell) = (target.read? cell).map (Value.renumber number))
      (shown : (value.renumber number).text? = value.text?)
      (captured : ∀ env, Leads target (.value value) (.env env) →
        (env.renumber number).text? target' = env.text? target) :
      Renumbered number (.ok value target) (.ok (value.renumber number) target')
  | error (failure : Failure) {target target' : Store} :
      Renumbered number (.error failure target) (.error failure target')

private theorem Tracks.renumbered {number : Nat → Nat} {live : Nat → Prop}
    {result result' : EStateM.Result Failure Store Value}
    (tracks : Tracks number live result result') : Renumbered number result result' := by
  cases tracks with
  | @ok value target target' renumbers inside =>
    refine .ok (fun cell reaches => ?_) value.text?_renumber fun env leads => ?_
    · exact renumbers.cells cell (reaches.live renumbers.closed inside)
    · exact renumbers.envText?_eq (leads.within renumbers.closed inside)
  | error failure => exact .error failure

theorem Renumbered.settled {number : Nat → Nat}
    {result result' : EStateM.Result Failure Store Value}
    (renumbered : Renumbered number result result') :
    Renumbered number (settled result) (settled result') := by
  cases renumbered with
  | ok cells shown captured => exact .ok cells shown captured
  | error failure =>
    cases failure with
    | error cause =>
      refine .ok (fun cell reaches => ?_) rfl fun env leads => ?_
      · cases reaches with
        | through holds => cases holds
      · obtain same | ⟨_, holds, -⟩ := leads.cases_head
        · cases same
        · cases holds
    | _ => exact .error _

section

variable {store later : Store} {env : Env} (reserved : Reserved store (.env env))
  (extended : store.ExtendedBy later)
include reserved extended

/-- A later store is the first one with cells put in between those that are reserved already and
those that are reserved next. -/
private theorem Reserved.renumbers :
    Renumbers (shiftFrom store.size (later.size - store.size))
      (fun cell => Reaches store (.env env) cell ∨ store.size ≤ cell) store later := by
  have kept : ∀ cell, Reaches store (.env env) cell →
      shiftFrom store.size (later.size - store.size) cell = cell :=
    fun cell reaches => shiftFrom_of_lt (reserved cell reaches)
  have moved : ∀ count, shiftFrom store.size (later.size - store.size) (store.size + count) =
      later.size + count := by
    intro count
    have := extended.size_le
    rw [shiftFrom, if_neg (by omega)]
    omega
  refine ⟨moved, fun _ => .inr, ?_, ?_⟩
  · rintro cell value (reaches | outside) read
    · exact (closed_reaches store _ cell value reaches read).mono fun _ => .inl
    · rw [Store.read?_eq_none outside] at read
      cases read
  · rintro cell (reaches | outside)
    · rw [kept cell reaches, extended.read?_eq (reserved cell reaches)]
      cases read : store.read? cell with
      | none => rfl
      | some value =>
        have inside := (closed_reaches store _ cell value reaches read).mono kept
        rw [Option.map_some, Value.renumber_eq_self inside]
    · obtain ⟨count, rfl⟩ := Nat.exists_eq_add_of_le outside
      rw [moved, Store.read?_eq_none (Nat.le_add_right ..), Store.read?_eq_none outside,
        Option.map_none]

theorem Reserved.renumbered_evaluate (limit : Nat) (expr : Expr) :
    Renumbered (shiftFrom store.size (later.size - store.size)) (evaluate limit env expr store)
      (evaluate limit env expr later) := by
  have inside : env.Within fun cell => Reaches store (.env env) cell ∨ store.size ≤ cell :=
    env_within_of_reaches env fun _ => .inl
  have unchanged : env.renumber (shiftFrom store.size (later.size - store.size)) = env :=
    Env.renumber_eq_self
      (env_within_of_reaches env fun cell reaches => shiftFrom_of_lt (reserved cell reaches))
  have tracks : Tracks _ _ (evaluate limit env expr store) (evaluate limit _ expr later) :=
    keepsTrack (shiftFrom_injective ..) limit (reserved.renumbers extended) inside
  rw [unchanged] at tracks
  exact tracks.renumbered

end

/-! ## Calls -/

inductive Call where
  | evaluate (expr : Expr)
  | evaluateText (source : String)
  | run (expr : Expr)
  | runText (source : String)

namespace Call

def perform (interpreter : Interpreter) : Call → Computation Value
  | evaluate expr => interpreter.evaluate expr
  | evaluateText source => interpreter.evaluateText source
  | run expr => interpreter.run expr
  | runText source => interpreter.runText source

/-- A call evaluates an expression or refuses a text, and may then turn an error into a value. -/
theorem perform_induction {motive : (Store → EStateM.Result Failure Store Value) → Prop}
    (interpreter : Interpreter) (evaluated : ∀ expr, motive (interpreter.evaluate expr))
    (rejected : ∀ failure, motive (.error failure))
    (caught : ∀ {computation}, motive computation → motive fun store => settled (computation store))
    (call : Call) : motive (call.perform interpreter) := by
  have text : ∀ source, motive (interpreter.evaluateText source) := by
    intro source
    cases parsed : parse source with
    | ok expr =>
      rw [interpreter.evaluateText_of_ok parsed]
      exact evaluated expr
    | error failure =>
      have refused : interpreter.evaluateText source = EStateM.Result.error failure :=
        funext fun store => interpreter.evaluateText_of_error store parsed
      rw [refused]
      exact rejected failure
  cases call with
  | evaluate expr => exact evaluated expr
  | evaluateText source => exact text source
  | run expr =>
    have settles : interpreter.run expr = fun store => settled (interpreter.evaluate expr store) :=
      funext fun store => interpreter.run_eq_settled store expr
    rw [perform, settles]
    exact caught (evaluated expr)
  | runText source =>
    have settles : interpreter.runText source =
        fun store => settled (interpreter.evaluateText source store) :=
      funext fun store => interpreter.runText_eq_settled store source
    rw [perform, settles]
    exact caught (text source)

variable {interpreter : Interpreter} {store later : Store}

private theorem storeAfter_settled (result : EStateM.Result Failure Store Value) :
    storeAfter (settled result) = storeAfter result := by
  unfold settled
  split
  · rfl
  · rfl

theorem extendedBy_perform (interpreter : Interpreter) (call : Call) (store : Store) :
    store.ExtendedBy (storeAfter (call.perform interpreter store)) := by
  refine call.perform_induction
    (motive := fun computation => ∀ store, store.ExtendedBy (storeAfter (computation store)))
    interpreter ?_ ?_ ?_ store
  · exact fun expr => .evaluate nestingLimit interpreter.env expr
  · exact fun _ => .refl
  · intro computation ih store
    rw [storeAfter_settled]
    exact ih store

theorem reserved_of_perform (reserved : Reserved store (.env interpreter.env)) {call : Call}
    {value : Value} {target : Store} (success : call.perform interpreter store = .ok value target) :
    Reserved target (.value value) := by
  refine call.perform_induction
    (motive := fun computation => ∀ {value target}, computation store = .ok value target →
      Reserved target (.value value)) interpreter ?_ ?_ ?_ success
  · exact fun expr => reserved.of_evaluate
  · exact fun _ => nofun
  · intro computation ih value target success
    simp only [settled] at success
    split at success
    · cases success
      intro cell reaches
      cases reaches with
      | through holds => cases holds
    · exact ih success

theorem renumbered_perform (reserved : Reserved store (.env interpreter.env))
    (extended : store.ExtendedBy later) (call : Call) :
    Renumbered (shiftFrom store.size (later.size - store.size)) (call.perform interpreter store)
      (call.perform interpreter later) := by
  refine call.perform_induction
    (motive := fun computation => Renumbered (shiftFrom store.size (later.size - store.size))
      (computation store) (computation later)) interpreter ?_ ?_ ?_
  · exact reserved.renumbered_evaluate extended nestingLimit
  · exact fun failure => .error failure
  · exact fun renumbered => renumbered.settled

end Call

/-- The store after the calls, one after the other. Calls that fail leave their cells behind as
well. -/
def Interpreter.storeAfterCalls (interpreter : Interpreter) (calls : List Call) (store : Store) :
    Store :=
  calls.foldl (fun before call => storeAfter (call.perform interpreter before)) store

theorem Interpreter.extendedBy_storeAfterCalls (interpreter : Interpreter) (calls : List Call)
    (store : Store) : store.ExtendedBy (interpreter.storeAfterCalls calls store) := by
  induction calls generalizing store with
  | nil => exact .refl store
  | cons call calls ih => exact (call.extendedBy_perform interpreter store).trans (ih _)

/-- Whatever calls were made before, a call of an interpreter gives what it gives as the first one,
up to the numbers of the cells that it reserves. It does not disturb the environment of the
interpreter, and no later calls disturb the value that it gives. -/
theorem calls_are_independent (interpreter : Interpreter) (store : Store)
    (reserved : ∀ binding ∈ interpreter.bindings, Reserved store (.value binding.2))
    (earlier : List Call) (call : Call) (following : List Call) :
    let before := interpreter.storeAfterCalls earlier store
    let after := storeAfter (call.perform interpreter before)
    let final := interpreter.storeAfterCalls following after
    Renumbered (shiftFrom store.size (before.size - store.size)) (call.perform interpreter store)
      (call.perform interpreter before) ∧
    Undisturbed before after (.env interpreter.env) ∧
    ∀ value, call.perform interpreter before = .ok value after →
      Undisturbed after final (.value value) := by
  intro before after final
  have inEnv : Reserved store (.env interpreter.env) := .env reserved
  have extended : store.ExtendedBy before := interpreter.extendedBy_storeAfterCalls earlier store
  have stillReserved : Reserved before (.env interpreter.env) := inEnv.mono extended
  refine ⟨call.renumbered_perform inEnv extended, ?_, ?_⟩
  · exact stillReserved.undisturbed (call.extendedBy_perform interpreter before)
  · intro value success
    exact (Call.reserved_of_perform stillReserved success).undisturbed
      (interpreter.extendedBy_storeAfterCalls following after)

/-- A function in its own frame is bound. The first call abandons the frame of a definition that
reads its own name. The second one makes a function, which it would have made one cell earlier, and
the third one does the same again. -/
theorem calls_are_independent_after_abandoned_frame :
    let function : Value := .closure (.recursive "f" 0 .empty) "n" (.var "f")
    let store : Store := ⟨#[some function]⟩
    let interpreter : Interpreter := ⟨[("f", function)]⟩
    let abandoned : Call := .evaluate (.letIn "x" (.binary .plus (.var "x") (.int 1)) (.var "x"))
    let call : Call := .run (.letIn "g" (.lambda "y" (.apply (.var "f") (.var "g"))) (.var "g"))
    let before := interpreter.storeAfterCalls [abandoned] store
    let after := storeAfter (call.perform interpreter before)
    let made (cell : Nat) : Value := .closure (.recursive "g" cell interpreter.env) "y"
      (.apply (.var "f") (.var "g"))
    (∀ binding ∈ interpreter.bindings, Reserved store (.value binding.2)) ∧
      before = ⟨#[some function, none]⟩ ∧
      call.perform interpreter store = .ok (made 1) ⟨#[some function, some (made 1)]⟩ ∧
      call.perform interpreter before = .ok (made 2) ⟨#[some function, none, some (made 2)]⟩ ∧
      Renumbered (shiftFrom 1 1) (call.perform interpreter store)
        (call.perform interpreter before) ∧
      Undisturbed before after (.env interpreter.env) ∧
      Undisturbed after (interpreter.storeAfterCalls [call, abandoned] after)
        (.value (made 2)) := by
  intro function store interpreter abandoned call before after made
  have closed : Closed (· = 0) store := by
    rintro cell value rfl read
    cases read
    exact ⟨rfl, trivial⟩
  have reserved : ∀ binding ∈ interpreter.bindings, Reserved store (.value binding.2) := by
    intro binding member cell reaches
    obtain rfl := List.mem_singleton.mp member
    have first : cell = 0 := reaches.live closed ⟨rfl, trivial⟩
    rw [first]
    decide
  obtain ⟨renumbered, inEnv, inValue⟩ :=
    calls_are_independent interpreter store reserved [abandoned] call [call, abandoned]
  exact ⟨reserved, rfl, rfl, rfl, renumbered, inEnv, inValue (made 2) rfl⟩

end MiniFun
