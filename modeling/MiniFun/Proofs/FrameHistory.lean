import MiniFun.Proofs.EvaluationExactness

/-! # The history of recursive frames

The frame of a definition is a cell of the store. Evaluation changes the store in two ways only: it
reserves a cell when a definition is entered, and it fills that cell when the bound expression has
given its value. `record` evaluates while it keeps a list of these events, and changes the store by
events alone. Its results are those of evaluation.

Each event of a run is permitted when it happens: a cell is filled once it was reserved, while it is
unfilled, and with the value of its own definition. What a run fills it has reserved itself, so that
older cells stay as they are.
-/

namespace MiniFun

namespace Store

@[simp]
theorem size_reserve (store : Store) : store.reserve.size = store.size + 1 :=
  Array.size_push ..

@[simp]
theorem size_fill (store : Store) (cell : Nat) (value : Value) :
    (store.fill cell value).size = store.size :=
  Array.size_setIfInBounds

/-- A cell that is not reserved has no value. -/
theorem read?_eq_none {store : Store} {cell : Nat} (outside : store.size ≤ cell) :
    store.read? cell = none := by
  rw [read?, Array.getElem?_eq_none outside]
  rfl

@[simp]
theorem read?_reserve (store : Store) (cell : Nat) :
    store.reserve.read? cell = store.read? cell := by
  rw [read?, read?, reserve, Array.getElem?_push]
  split
  · rename_i last
    rw [last, Array.getElem?_eq_none (Nat.le_refl _)]
    rfl
  · rfl

@[simp]
theorem read?_fill_self {store : Store} {cell : Nat} (inside : cell < store.size) (value : Value) :
    (store.fill cell value).read? cell = some value := by
  rw [read?, fill, Array.getElem?_setIfInBounds_self_of_lt inside]
  rfl

theorem read?_fill_other {store : Store} {cell other : Nat} (differs : cell ≠ other)
    (value : Value) : (store.fill cell value).read? other = store.read? other := by
  rw [read?, read?, fill, Array.getElem?_setIfInBounds_ne differs]

end Store

/-! ## Events -/

/-- A definition that is evaluated, and the cell of its frame. -/
structure Definition where
  /-- The limit within which the bound expression is evaluated. -/
  limit : Nat
  env : Env
  name : String
  bound : Expr
  cell : Nat

namespace Definition

/-- The environment in which the bound expression and the body are evaluated. -/
def inner (definition : Definition) : Env :=
  .recursive definition.name definition.cell definition.env

/-- Evaluates the bound expression, starting with a fresh cell. -/
def evaluateBound (definition : Definition) (store : Store) : EStateM.Result Failure Store Value :=
  evaluate definition.limit definition.inner definition.bound store.reserve

end Definition

inductive Event where
  | reserve (definition : Definition)
  | fill (definition : Definition) (value : Value)

namespace Event

def apply : Event → Store → Store
  | reserve _, store => store.reserve
  | fill definition value, store => store.fill definition.cell value

/-- The next cell is the one that is reserved. A cell may be filled if it is reserved and unfilled,
and if the bound expression of its definition has just given the value. -/
def Permitted : Event → Store → Prop
  | reserve definition, store => definition.cell = store.size
  | fill definition value, store =>
    definition.cell < store.size ∧ store.read? definition.cell = none ∧
      ∃ start, Store.size start = definition.cell ∧ definition.evaluateBound start = .ok value store

private theorem size_le_apply (event : Event) (store : Store) :
    store.size ≤ (event.apply store).size := by
  cases event with
  | reserve definition =>
    rw [apply, Store.size_reserve]
    exact Nat.le_succ _
  | fill definition value => exact Nat.le_of_eq (Store.size_fill ..).symm

/-- A permitted event changes no cell that has a value. -/
private theorem Permitted.keeps {event : Event} {store : Store} (permitted : event.Permitted store)
    {cell : Nat} {value : Value} (known : store.read? cell = some value) :
    (event.apply store).read? cell = some value := by
  cases event with
  | reserve definition => rw [apply, Store.read?_reserve, known]
  | fill definition other =>
    have differs : definition.cell ≠ cell := by
      rintro rfl
      cases permitted.2.1.symm.trans known
    rw [apply, Store.read?_fill_other differs, known]

end Event

def replay : List Event → Store → Store
  | [], store => store
  | event :: rest, store => replay rest (event.apply store)

theorem replay_append (first second : List Event) (store : Store) :
    replay (first ++ second) store = replay second (replay first store) := by
  induction first generalizing store with
  | nil => rfl
  | cons event rest ih => exact ih (event.apply store)

private theorem size_le_replay (events : List Event) (store : Store) :
    store.size ≤ (replay events store).size := by
  induction events generalizing store with
  | nil => exact Nat.le_refl _
  | cons event rest ih => exact Nat.le_trans (event.size_le_apply store) (ih _)

/-- A cell that none of the events fills stays as it is. -/
private theorem read?_replay_of_not_filled {events : List Event} {cell : Nat}
    (untouched : ∀ definition value, Event.fill definition value ∈ events → definition.cell ≠ cell)
    (store : Store) : (replay events store).read? cell = store.read? cell := by
  induction events generalizing store with
  | nil => rfl
  | cons event rest ih =>
    have same : (event.apply store).read? cell = store.read? cell := by
      cases event with
      | reserve definition => exact store.read?_reserve cell
      | fill definition value =>
        exact Store.read?_fill_other (untouched definition value List.mem_cons_self) value
    rw [replay, ih fun definition value member =>
      untouched definition value (List.mem_cons_of_mem _ member), same]

def Orderly : Store → List Event → Prop
  | _, [] => True
  | store, event :: rest => event.Permitted store ∧ Orderly (event.apply store) rest

namespace Orderly

theorem append_iff {store : Store} {first second : List Event} :
    Orderly store (first ++ second) ↔ Orderly store first ∧ Orderly (replay first store) second := by
  induction first generalizing store with
  | nil => simp [Orderly, replay]
  | cons event rest ih => simp [Orderly, replay, ih, and_assoc]

/-- Once a cell has a value, it keeps it. -/
theorem keeps {store : Store} {events : List Event} (orderly : Orderly store events) {cell : Nat}
    {value : Value} (known : store.read? cell = some value) :
    (replay events store).read? cell = some value := by
  induction events generalizing store with
  | nil => exact known
  | cons event rest ih => exact ih orderly.2 (orderly.1.keeps known)

/-- A cell that has a value is not filled. -/
private theorem not_filled {store : Store} {events : List Event} (orderly : Orderly store events)
    {definition : Definition} {value other : Value}
    (known : store.read? definition.cell = some value) :
    .fill definition other ∉ events := by
  induction events generalizing store with
  | nil => nofun
  | cons event rest ih =>
    rintro (_ | _)
    · cases orderly.1.2.1.symm.trans known
    · rename_i behind
      exact ih orderly.2 (orderly.1.keeps known) behind

end Orderly

/-- If the bound expression of the definition gives a value, then the cell is filled with it right
where the bound expression has left the store. -/
def Concluded (definition : Definition) (source : Store) (events : List Event) : Prop :=
  ∀ value middle, definition.evaluateBound source = .ok value middle →
    ∃ during later, events = during ++ .fill definition value :: later ∧
      replay during source.reserve = middle

def Conclusive : Store → List Event → Prop
  | _, [] => True
  | store, .reserve definition :: rest =>
    Concluded definition store rest ∧ Conclusive store.reserve rest
  | store, .fill definition value :: rest =>
    Conclusive (store.fill definition.cell value) rest

theorem Concluded.append {definition : Definition} {source : Store} {first : List Event}
    (concluded : Concluded definition source first) (second : List Event) :
    Concluded definition source (first ++ second) := by
  intro value middle given
  obtain ⟨during, later, rfl, same⟩ := concluded value middle given
  exact ⟨during, later ++ second, by simp, same⟩

namespace Conclusive

theorem append {store : Store} {first second : List Event} (front : Conclusive store first)
    (back : Conclusive (replay first store) second) : Conclusive store (first ++ second) := by
  induction first generalizing store with
  | nil => exact back
  | cons event rest ih =>
    cases event with
    | reserve definition => exact ⟨front.1.append second, ih front.2 back⟩
    | fill definition value => exact ih front back

/-- What is left of the events is conclusive, too. -/
theorem suffix {store : Store} {first second : List Event}
    (conclusive : Conclusive store (first ++ second)) : Conclusive (replay first store) second := by
  induction first generalizing store with
  | nil => exact conclusive
  | cons event rest ih =>
    cases event with
    | reserve definition => exact ih conclusive.2
    | fill definition value => exact ih conclusive

end Conclusive

/-- The events lead from one store to the other, and what they fill they have reserved. -/
structure History (source : Store) (events : List Event) (target : Store) : Prop where
  replayed : replay events source = target
  orderly : Orderly source events
  conclusive : Conclusive source events
  fresh : ∀ definition value, Event.fill definition value ∈ events → source.size ≤ definition.cell

namespace History

theorem nil (store : Store) : History store [] store :=
  ⟨rfl, trivial, trivial, nofun⟩

theorem size_le {source target : Store} {events : List Event}
    (history : History source events target) : source.size ≤ target.size := by
  rw [← history.replayed]
  exact size_le_replay events source

theorem append {source middle target : Store} {first second : List Event}
    (front : History source first middle) (back : History middle second target) :
    History source (first ++ second) target where
  replayed := by rw [replay_append, front.replayed, back.replayed]
  orderly := Orderly.append_iff.mpr ⟨front.orderly, by rw [front.replayed]; exact back.orderly⟩
  conclusive := front.conclusive.append (by rw [front.replayed]; exact back.conclusive)
  fresh := by
    intro definition value member
    obtain early | late := List.mem_append.mp member
    · exact front.fresh definition value early
    · exact Nat.le_trans front.size_le (back.fresh definition value late)

/-- The cells that were there before are left as they are. -/
theorem read?_eq {source target : Store} {events : List Event}
    (history : History source events target) {cell : Nat} (older : cell < source.size) :
    target.read? cell = source.read? cell := by
  rw [← history.replayed]
  refine read?_replay_of_not_filled (fun definition value member => ?_) source
  have := history.fresh definition value member
  omega

/-- A definition whose bound expression gives a value. -/
theorem define {source middle target : Store} {definition : Definition} {value : Value}
    {first second : List Event} (next : definition.cell = source.size)
    (given : definition.evaluateBound source = .ok value middle)
    (bound : History source.reserve first middle)
    (body : History (middle.fill definition.cell value) second target) :
    History source (.reserve definition :: (first ++ .fill definition value :: second)) target := by
  have older : definition.cell < source.reserve.size := by
    rw [Store.size_reserve, next]
    exact Nat.lt_succ_self _
  have permitted : (Event.fill definition value).Permitted middle := by
    refine ⟨Nat.lt_of_lt_of_le older bound.size_le, ?_, source, next.symm, given⟩
    rw [bound.read?_eq older, Store.read?_reserve]
    exact Store.read?_eq_none (Nat.le_of_eq next.symm)
  refine ⟨?_, ⟨next, ?_⟩, ⟨?_, ?_⟩, ?_⟩
  · rw [replay, replay_append]
    exact bound.replayed.symm ▸ body.replayed
  · refine Orderly.append_iff.mpr ⟨bound.orderly, ?_⟩
    exact bound.replayed.symm ▸ ⟨permitted, body.orderly⟩
  · intro result last again
    cases given.symm.trans again
    exact ⟨first, second, rfl, bound.replayed⟩
  · refine bound.conclusive.append ?_
    exact bound.replayed.symm ▸ body.conclusive
  · intro other result member
    rw [List.mem_cons, List.mem_append, List.mem_cons] at member
    have grown := bound.size_le
    rw [Store.size_reserve] at grown
    obtain same | early | same | late := member
    · cases same
    · have := bound.fresh other result early
      rw [Store.size_reserve] at this
      omega
    · cases same
      exact Nat.le_of_eq next.symm
    · have := body.fresh other result late
      rw [Store.size_fill] at this
      omega

/-- A definition whose bound expression gives no value. -/
theorem abandon {source target : Store} {definition : Definition} {failure : Failure}
    {events : List Event} (next : definition.cell = source.size)
    (failed : definition.evaluateBound source = .error failure target)
    (bound : History source.reserve events target) :
    History source (.reserve definition :: events) target := by
  refine ⟨bound.replayed, ⟨next, bound.orderly⟩, ⟨?_, bound.conclusive⟩, ?_⟩
  · intro value middle given
    cases failed.symm.trans given
  · intro other result member
    obtain same | inside := List.mem_cons.mp member
    · cases same
    · have := bound.fresh other result inside
      rw [Store.size_reserve] at this
      omega

end History

/-! ## Recorded runs -/

/-- The store, and the events that led to it. -/
structure Recording where
  store : Store
  events : List Event

/-- Computations that keep a record of what they do with the store. -/
abbrev Recorder := EStateM Failure Recording

namespace Recorder

/-- Looks at the store without changing it. -/
def consult {α : Type} (look : Store → Except Failure α) : Recorder α := fun recording =>
  match look recording.store with
  | .ok result => .ok result recording
  | .error failure => .error failure recording

/-- Changes the store by an event, which is recorded. -/
def perform (event : Event) : Recorder Unit :=
  modify fun recording => ⟨event.apply recording.store, recording.events ++ [event]⟩

end Recorder

def record : Nat → Env → Expr → Recorder Value
  | 0, _, _ => throw .tooDeep
  | limit + 1, env, expr => do
    match expr with
    | .int value => return .int value
    | .bool value => return .bool value
    | .nil => return .nil
    | .var name => .consult fun store => (env.find store name).mapError .error
    | .lambda param body => return .closure env param body
    | .binary op left right =>
      let leftValue ← record limit env left
      let rightValue ← record limit env right
      .consult fun _ => (op.apply leftValue rightValue).mapError .error
    | .unknown symbol left right =>
      let _ ← record limit env left
      let _ ← record limit env right
      throw (.error (.internal (.unknownOperator symbol)))
    | .cond test consequent alternative =>
      match ← record limit env test with
      | .bool true => record limit env consequent
      | .bool false => record limit env alternative
      | _ => throw (.error (.mistyped .notBoolean))
    | .letIn name bound body =>
      let definition : Definition := ⟨limit, env, name, bound, (← get).store.size⟩
      .perform (.reserve definition)
      let value ← record limit definition.inner bound
      .perform (.fill definition value)
      record limit definition.inner body
    | .apply function argument =>
      match ← record limit env function with
      | .closure captured param body =>
        let argumentValue ← record limit env argument
        record limit (captured.extend param argumentValue) body
      | .primitive builtin =>
        let argumentValue ← record limit env argument
        .consult fun _ => (builtin.apply argumentValue).mapError .error
      | _ => throw (.error (.mistyped .notFunction))
    | .embedded value => .consult fun _ =>
      match value.form? with
      | some node => .error (.error (.internal (.unevaluable node)))
      | none => .error .longInteger

def withEvents {α : Type} (events : List Event) :
    EStateM.Result Failure Store α → EStateM.Result Failure Recording α
  | .ok result store => .ok result ⟨store, events⟩
  | .error failure store => .error failure ⟨store, events⟩

def storeAfter {α : Type} : EStateM.Result Failure Store α → Store
  | .ok _ store | .error _ store => store

/-- The recorder does what the computation does, and its events are the history of the store. -/
def RecordedBy {α : Type} (computation : Computation α) (recorder : Recorder α) : Prop :=
  ∀ store events, ∃ new, recorder ⟨store, events⟩ = withEvents (events ++ new) (computation store) ∧
    History store new (storeAfter (computation store))

namespace RecordedBy

theorem pure {α : Type} (result : α) :
    RecordedBy (Pure.pure result : Computation α) (Pure.pure result) :=
  fun store events => ⟨[], by rw [List.append_nil]; rfl, .nil store⟩

theorem throw {α : Type} (failure : Failure) :
    RecordedBy (MonadExcept.throw failure : Computation α) (MonadExcept.throw failure) :=
  fun store events => ⟨[], by rw [List.append_nil]; rfl, .nil store⟩

/-- What only looks at the store has no events. -/
theorem consult {α : Type} {computation : Computation α} {look : Store → Except Failure α}
    (same : ∀ store, computation store = Computation.ofExcept (look store) store) :
    RecordedBy computation (.consult look) := by
  intro store events
  refine ⟨[], ?_, ?_⟩
  · rw [List.append_nil, same, Recorder.consult]
    cases look store <;> rfl
  · have unchanged : storeAfter (computation store) = store := by
      rw [same]
      cases look store <;> rfl
    rw [unchanged]
    exact .nil store

theorem ofStep (step : Except Error Value) :
    RecordedBy (Computation.ofStep step) (.consult fun _ => step.mapError .error) :=
  consult fun store => by cases step <;> rfl

theorem bind {α β : Type} {computation : Computation α} {recorder : Recorder α}
    {next : α → Computation β} {nextRecorder : α → Recorder β}
    (front : RecordedBy computation recorder)
    (back : ∀ result, RecordedBy (next result) (nextRecorder result)) :
    RecordedBy (computation >>= next) (recorder >>= nextRecorder) := by
  intro store events
  obtain ⟨first, ran, history⟩ := front store events
  cases result : computation store with
  | ok value middle =>
    rw [result] at ran history
    obtain ⟨second, continued, later⟩ := back value middle (events ++ first)
    refine ⟨first ++ second, ?_, ?_⟩
    · rw [bind_of_ok ran, bind_of_ok result, continued, List.append_assoc]
    · rw [bind_of_ok result]
      exact history.append later
  | error failure middle =>
    rw [result] at ran history
    refine ⟨first, ?_, ?_⟩
    · rw [bind_of_error ran, bind_of_error result]
      rfl
    · rw [bind_of_error result]
      exact history

end RecordedBy

/-- A definition reserves its cell, and fills it if the bound expression gives a value. -/
private theorem recordedBy_letIn {limit : Nat}
    (inner : ∀ env expr, RecordedBy (evaluate limit env expr) (record limit env expr)) (env : Env)
    (name : String) (bound body : Expr) :
    RecordedBy (evaluate (limit + 1) env (.letIn name bound body))
      (record (limit + 1) env (.letIn name bound body)) := by
  intro store events
  let definition : Definition := ⟨limit, env, name, bound, store.size⟩
  let reserved : Event := .reserve definition
  obtain ⟨first, ran, history⟩ := inner definition.inner bound store.reserve (events ++ [reserved])
  have started : record (limit + 1) env (.letIn name bound body) ⟨store, events⟩ =
      (do
        let value ← record limit definition.inner bound
        Recorder.perform (.fill definition value)
        record limit definition.inner body) ⟨store.reserve, events ++ [reserved]⟩ := rfl
  cases result : evaluate limit definition.inner bound store.reserve with
  | error failure middle =>
    rw [result] at ran history
    have evaluated : evaluate (limit + 1) env (.letIn name bound body) store =
        .error failure middle := (evaluate_letIn ..).trans (bind_of_error result)
    refine ⟨reserved :: first, ?_, ?_⟩
    · rw [started, bind_of_error ran, evaluated, List.append_assoc]
      rfl
    · rw [evaluated]
      exact .abandon rfl result history
  | ok value middle =>
    rw [result] at ran history
    have evaluated : evaluate (limit + 1) env (.letIn name bound body) store =
        evaluate limit definition.inner body (middle.fill store.size value) :=
      (evaluate_letIn ..).trans (bind_of_ok result)
    let filled : Event := .fill definition value
    obtain ⟨second, continued, later⟩ := inner definition.inner body
      (middle.fill store.size value) (events ++ [reserved] ++ first ++ [filled])
    refine ⟨reserved :: (first ++ filled :: second), ?_, ?_⟩
    · have flat : events ++ reserved :: (first ++ filled :: second) =
          events ++ [reserved] ++ first ++ [filled] ++ second := by simp
      rw [started, bind_of_ok ran, evaluated, flat]
      exact continued
    · rw [evaluated]
      exact .define rfl result history later

theorem evaluate_recordedBy (limit : Nat) (env : Env) (expr : Expr) :
    RecordedBy (evaluate limit env expr) (record limit env expr) := by
  induction limit generalizing env expr with
  | zero => exact .throw _
  | succ limit ih =>
    cases expr with
    | int | bool | nil | lambda => exact .pure _
    | var name =>
      have looked : RecordedBy (env.lookup name)
          (.consult fun store => (env.find store name).mapError .error) := by
        refine .consult fun store => ?_
        change Computation.ofStep (env.find store name) store = _
        cases env.find store name <;> rfl
      exact looked
    | binary op left right =>
      exact .bind (ih env left) fun _ => .bind (ih env right) fun _ => .ofStep _
    | unknown symbol left right =>
      exact .bind (ih env left) fun _ => .bind (ih env right) fun _ => .throw _
    | cond test consequent alternative =>
      refine .bind (ih env test) fun testValue => ?_
      cases testValue with
      | bool value =>
        cases value with
        | false => exact ih env alternative
        | true => exact ih env consequent
      | _ => exact .throw _
    | letIn name bound body => exact recordedBy_letIn ih env name bound body
    | apply function argument =>
      refine .bind (ih env function) fun functionValue => ?_
      cases functionValue with
      | closure captured param body => exact .bind (ih env argument) fun _ => ih _ body
      | primitive builtin => exact .bind (ih env argument) fun _ => .ofStep _
      | _ => exact .throw _
    | embedded value =>
      have refused : RecordedBy value.refuse (.consult fun _ =>
          match value.form? with
          | some node => .error (.error (.internal (.unevaluable node)))
          | none => .error .longInteger) := by
        refine .consult fun store => ?_
        rw [Value.refuse]
        cases value.form? <;> rfl
      exact refused

/-! ## What becomes of a frame -/

/-- The cell of the first binding of the name, if that binding is recursive. -/
def Env.frame? (name : String) : Env → Option Nat
  | empty => none
  | bind bound _ rest => if bound = name then none else rest.frame? name
  | recursive bound cell rest => if bound = name then some cell else rest.frame? name

/-- A frame that is in force and filled gives its name the value. -/
private theorem Env.find_of_frame? {store : Store} {name : String} {env : Env} {cell : Nat}
    {value : Value} (inForce : env.frame? name = some cell)
    (known : store.read? cell = some value) :
    env.find store name = .ok value := by
  induction env with
  | empty => cases inForce
  | bind bound other rest ih =>
    by_cases same : bound = name
    · rw [frame?, if_pos same] at inForce
      cases inForce
    · rw [frame?, if_neg same] at inForce
      rw [find, if_neg same, ih inForce]
  | recursive bound other rest ih =>
    by_cases same : bound = name
    · rw [frame?, if_pos same] at inForce
      cases inForce
      rw [find, if_pos same, known]
    · rw [frame?, if_neg same] at inForce
      rw [find, if_neg same, ih inForce]

/-- The frame of a definition, filled between the events before and after. -/
structure FilledOnce (source : Store) (before : List Event) (definition : Definition)
    (value : Value) (after : List Event) : Prop where
  /-- The frame was made since the run began. -/
  created : source.size ≤ definition.cell ∧ definition.cell < (replay before source).size
  unfilled : (replay before source).read? definition.cell = none
  /-- The value is the one that the bound expression has just given. -/
  produced : ∃ start, Store.size start = definition.cell ∧
    definition.evaluateBound start = .ok value (replay before source)
  notAgain : ∀ other result, .fill other result ∈ after → other.cell ≠ definition.cell
  /-- From then on the name has the value wherever the frame is in force. -/
  visible : ∀ soon later, after = soon ++ later →
    ∀ captured : Env, captured.frame? definition.name = some definition.cell →
      captured.find (replay (before ++ .fill definition value :: soon) source) definition.name =
        .ok value

theorem History.filledOnce {source target : Store} {before after : List Event}
    {definition : Definition} {value : Value}
    (history : History source (before ++ .fill definition value :: after) target) :
    FilledOnce source before definition value after := by
  obtain ⟨orderlyBefore, permitted, orderlyAfter⟩ := Orderly.append_iff.mp history.orderly
  obtain ⟨inside, unfilled, produced⟩ := permitted
  have known : ((Event.fill definition value).apply (replay before source)).read? definition.cell =
      some value := Store.read?_fill_self inside value
  refine ⟨⟨history.fresh definition value (by simp), inside⟩, unfilled, produced, ?_, ?_⟩
  · intro other result member same
    rw [← same] at known
    exact orderlyAfter.not_filled known member
  · rintro soon later rfl captured inForce
    refine Env.find_of_frame? inForce ?_
    rw [replay_append]
    exact (Orderly.append_iff.mp orderlyAfter).1.keeps known

end MiniFun
