import MiniFun.Proofs.FrameHistory

/-! # Frames that a value reaches

A value reaches the frames of the environments that its closures have captured, and on through the
values in these frames. A definition makes closures that reach its own frame before it is filled.
They can be used, but as long as the frame is unfilled the definition is not done: what evaluation
gives back reaches no unfilled frames other than those that were unfilled, and live, before.

The argument follows a set of live cells that grows with the evaluation. Everything at hand holds
live cells only, and so do the values in live cells; whatever can be reached is live.
-/

namespace MiniFun

/-- What frames are reached from. -/
inductive Node where
  | value (value : Value)
  | env (env : Env)

/-- The second node is a part of the first one, or the value in its frame. -/
inductive Holds (store : Store) : Node → Node → Prop
  | head (head tail : Value) : Holds store (.value (.pair head tail)) (.value head)
  | tail (head tail : Value) : Holds store (.value (.pair head tail)) (.value tail)
  | captured (env : Env) (param : String) (body : Expr) :
      Holds store (.value (.closure env param body)) (.env env)
  | bound (name : String) (value : Value) (rest : Env) :
      Holds store (.env (.bind name value rest)) (.value value)
  | behindBound (name : String) (value : Value) (rest : Env) :
      Holds store (.env (.bind name value rest)) (.env rest)
  | inFrame {name : String} {cell : Nat} {value : Value} {rest : Env}
      (known : store.read? cell = some value) :
      Holds store (.env (.recursive name cell rest)) (.value value)
  | behindRecursive (name : String) (cell : Nat) (rest : Env) :
      Holds store (.env (.recursive name cell rest)) (.env rest)

/-- The frame with the cell can be reached from the node, in any number of steps. -/
inductive Reaches (store : Store) : Node → Nat → Prop
  | frame (name : String) (cell : Nat) (rest : Env) :
      Reaches store (.env (.recursive name cell rest)) cell
  | through {first second : Node} {cell : Nat} :
      Holds store first second → Reaches store second cell → Reaches store first cell

/-! ## Live cells -/

mutual

/-- All frames in the value, those inside of other frames apart, are live. -/
def Value.Within (live : Nat → Prop) : Value → Prop
  | .pair head tail => head.Within live ∧ tail.Within live
  | .closure env _ _ => env.Within live
  | .int _ | .bool _ | .nil | .primitive _ | .failed _ => True

def Env.Within (live : Nat → Prop) : Env → Prop
  | .empty => True
  | .bind _ value rest => value.Within live ∧ rest.Within live
  | .recursive _ cell rest => live cell ∧ rest.Within live

end

mutual

theorem Value.Within.mono {live more : Nat → Prop} (grown : ∀ cell, live cell → more cell) :
    ∀ {value : Value}, value.Within live → value.Within more
  | .pair _ _, ⟨first, second⟩ => ⟨first.mono grown, second.mono grown⟩
  | .closure _ _ _, inside => Env.Within.mono grown inside
  | .int _, _ | .bool _, _ | .nil, _ | .primitive _, _ | .failed _, _ => trivial

theorem Env.Within.mono {live more : Nat → Prop} (grown : ∀ cell, live cell → more cell) :
    ∀ {env : Env}, env.Within live → env.Within more
  | .empty, _ => trivial
  | .bind _ _ _, ⟨first, second⟩ => ⟨Value.Within.mono grown first, second.mono grown⟩
  | .recursive _ _ _, ⟨first, second⟩ => ⟨grown _ first, second.mono grown⟩

end

def Node.Within (live : Nat → Prop) : Node → Prop
  | .value content => content.Within live
  | .env content => content.Within live

/-- The values in live cells hold live cells only. -/
def Closed (live : Nat → Prop) (store : Store) : Prop :=
  ∀ cell value, live cell → store.read? cell = some value → value.Within live

/-- What a node with live cells only holds has live cells only. -/
theorem Holds.within {live : Nat → Prop} {store : Store} {node other : Node}
    (holds : Holds store node other) (closed : Closed live store) (inside : node.Within live) :
    other.Within live := by
  cases holds with
  | head | bound => exact inside.1
  | tail | behindBound | behindRecursive => exact inside.2
  | captured => exact inside
  | inFrame known => exact closed _ _ inside.1 known

/-- From a node that holds live cells only, no other cell can be reached. -/
theorem Reaches.live {live : Nat → Prop} {store : Store} {node : Node} {cell : Nat}
    (reaches : Reaches store node cell) (closed : Closed live store) (inside : node.Within live) :
    live cell := by
  induction reaches with
  | frame => exact inside.1
  | through holds _ ih => exact ih (holds.within closed inside)

section

variable {live : Nat → Prop} {store : Store}

mutual

private theorem value_within_of_reaches :
    ∀ (value : Value), (∀ cell, Reaches store (.value value) cell → live cell) → value.Within live
  | .pair head tail, reached =>
    ⟨value_within_of_reaches head fun cell reaches => reached cell (.through (.head ..) reaches),
      value_within_of_reaches tail fun cell reaches => reached cell (.through (.tail ..) reaches)⟩
  | .closure env _ _, reached =>
    env_within_of_reaches env fun cell reaches => reached cell (.through (.captured ..) reaches)
  | .int _, _ | .bool _, _ | .nil, _ | .primitive _, _ | .failed _, _ => trivial

theorem env_within_of_reaches :
    ∀ (env : Env), (∀ cell, Reaches store (.env env) cell → live cell) → env.Within live
  | .empty, _ => trivial
  | .bind _ value rest, reached =>
    ⟨value_within_of_reaches value fun cell reaches => reached cell (.through (.bound ..) reaches),
      env_within_of_reaches rest fun cell reaches =>
        reached cell (.through (.behindBound ..) reaches)⟩
  | .recursive _ _ rest, reached =>
    ⟨reached _ (.frame ..),
      env_within_of_reaches rest fun cell reaches =>
        reached cell (.through (.behindRecursive ..) reaches)⟩

end

end

/-- What the value in a reached frame reaches is reached as well. -/
theorem Reaches.trans {store : Store} {node : Node} {cell other : Nat} {value : Value}
    (reaches : Reaches store node cell) (known : store.read? cell = some value)
    (further : Reaches store (.value value) other) : Reaches store node other := by
  induction reaches with
  | frame => exact .through (.inFrame known) further
  | through holds _ ih => exact .through holds (ih known)

/-- The reached cells hold reached cells only. -/
theorem closed_reaches (store : Store) (node : Node) : Closed (Reaches store node) store := by
  intro cell value reaches known
  exact value_within_of_reaches value fun other further => reaches.trans known further

/-! ## What lookups and operations give -/

theorem Env.find_within {live : Nat → Prop} {store : Store} {name : String} {env : Env}
    {value : Value} (found : env.find store name = .ok value) (closed : Closed live store)
    (inside : env.Within live) : value.Within live := by
  induction env with
  | empty => cases found
  | bind bound other rest ih =>
    rw [find] at found
    split at found
    · cases found
      exact inside.1
    · exact ih found inside.2
  | recursive bound cell rest ih =>
    rw [find] at found
    split at found
    · cases known : store.read? cell with
      | none =>
        rw [known] at found
        cases found
      | some other =>
        rw [known] at found
        cases found
        exact closed cell _ inside.1 known
    · exact ih found inside.2

/-- Operators give pairs of their operands, and otherwise values without frames. -/
theorem Operator.apply_within {live : Nat → Prop} {op : Operator} {left right value : Value}
    (given : op.apply left right = .ok value) (first : left.Within live)
    (second : right.Within live) : value.Within live := by
  have operates : Operates op left right (.value value) := operates_iff.mpr (by rw [given]; rfl)
  cases operates with
  | cons => exact ⟨first, second⟩
  | _ => trivial

/-- Functions of the host give back their argument or a part of it. -/
theorem Primitive.apply_within {live : Nat → Prop} {primitive : Primitive} {argument value : Value}
    (given : primitive.apply argument = .ok value) (inside : argument.Within live) :
    value.Within live := by
  have responds : Responds primitive.function argument (.value value) :=
    responds_iff.mpr (by rw [← Primitive.apply, given]; rfl)
  generalize primitive.function = function at responds
  cases responds with
  | head => exact inside.1
  | tail => exact inside.2
  | tailOfNil => trivial
  | identity => exact inside

private theorem ofStep_eq_ok_iff {step : Except Error Value} {value : Value}
    {source target : Store} :
    Computation.ofStep step source = .ok value target ↔ step = .ok value ∧ source = target := by
  cases step with
  | ok result =>
    rw [Computation.ofStep, pure_eq_ok_iff, Except.ok.injEq]
  | error cause =>
    constructor
    · nofun
    · rintro ⟨⟨⟩, _⟩

/-! ## Evaluation keeps to the live cells -/

/-- The live cells grow, and none of them is unfilled that was not unfilled before. -/
structure LiveGrowth (live : Nat → Prop) (source : Store) (more : Nat → Prop) (target : Store) :
    Prop where
  closed : Closed more target
  grown : ∀ cell, live cell → more cell
  pending : ∀ cell, more cell → target.read? cell = none → live cell ∧ source.read? cell = none

namespace LiveGrowth

variable {live more all : Nat → Prop} {source middle target : Store}

theorem refl (closed : Closed live source) : LiveGrowth live source live source :=
  ⟨closed, fun _ same => same, fun _ same unfilled => ⟨same, unfilled⟩⟩

theorem trans (front : LiveGrowth live source more middle) (back : LiveGrowth more middle all target) :
    LiveGrowth live source all target where
  closed := back.closed
  grown cell known := back.grown cell (front.grown cell known)
  pending cell known unfilled := by
    obtain ⟨between, unfilledBetween⟩ := back.pending cell known unfilled
    exact front.pending cell between unfilledBetween

/-- The cell of a definition is live and unfilled while the bound expression is evaluated, and is
filled before the body is. -/
private theorem define {value : Value}
    (bound : LiveGrowth (fun cell => live cell ∨ cell = source.size) source.reserve more middle)
    (reserved : source.size < middle.size) (inside : value.Within more) :
    LiveGrowth live source more (middle.fill source.size value) where
  closed := by
    intro cell other known read
    by_cases own : source.size = cell
    · subst own
      rw [Store.read?_fill_self reserved] at read
      cases read
      exact inside
    · rw [Store.read?_fill_other own] at read
      exact bound.closed cell other known read
  grown cell known := bound.grown cell (.inl known)
  pending := by
    intro cell known unfilled
    have differs : source.size ≠ cell := by
      rintro rfl
      rw [Store.read?_fill_self reserved] at unfilled
      cases unfilled
    rw [Store.read?_fill_other differs] at unfilled
    obtain ⟨older | own, unfilledBefore⟩ := bound.pending cell known unfilled
    · rw [Store.read?_reserve] at unfilledBefore
      exact ⟨older, unfilledBefore⟩
    · exact (differs own.symm).elim

end LiveGrowth

/-- A fresh cell is empty, so it may count as live. -/
private theorem Closed.reserve {live : Nat → Prop} {store : Store} (closed : Closed live store) :
    Closed (fun cell => live cell ∨ cell = store.size) store.reserve := by
  intro cell value known read
  rw [Store.read?_reserve] at read
  obtain older | rfl := known
  · exact (closed cell value older read).mono fun _ => .inl
  · rw [Store.read?_eq_none (Nat.le_refl _)] at read
    cases read

theorem size_le_of_evaluate {limit : Nat} {env : Env} {expr : Expr} {source target : Store}
    {value : Value} (success : evaluate limit env expr source = .ok value target) :
    source.size ≤ target.size := by
  obtain ⟨events, -, history⟩ := evaluate_recordedBy limit env expr source []
  rw [success] at history
  exact history.size_le

/-- Evaluation within the limit gives values within the live cells, if it starts with live cells
only. -/
def KeepsToLive (limit : Nat) : Prop :=
  ∀ {env : Env} {expr : Expr} {source target : Store} {value : Value} {live : Nat → Prop},
    evaluate limit env expr source = .ok value target → Closed live source → env.Within live →
      ∃ more, LiveGrowth live source more target ∧ value.Within more

namespace KeepsToLive

variable {limit : Nat} {env : Env} {source target : Store} {value : Value} {live : Nat → Prop}

private theorem binary (inner : KeepsToLive limit) {op : Operator} {left right : Expr}
    (success : evaluate (limit + 1) env (.binary op left right) source = .ok value target)
    (closed : Closed live source) (inside : env.Within live) :
    ∃ more, LiveGrowth live source more target ∧ value.Within more := by
  rw [evaluate, bind_eq_ok_iff] at success
  obtain ⟨leftValue, middle, first, success⟩ := success
  obtain ⟨rightValue, last, second, success⟩ := bind_eq_ok_iff.mp success
  obtain ⟨given, rfl⟩ := ofStep_eq_ok_iff.mp success
  obtain ⟨more, front, leftInside⟩ := inner first closed inside
  obtain ⟨all, back, rightInside⟩ := inner second front.closed (inside.mono front.grown)
  exact ⟨all, front.trans back,
    Operator.apply_within given (leftInside.mono back.grown) rightInside⟩

private theorem cond (inner : KeepsToLive limit) {test consequent alternative : Expr}
    (success : evaluate (limit + 1) env (.cond test consequent alternative) source =
      .ok value target)
    (closed : Closed live source) (inside : env.Within live) :
    ∃ more, LiveGrowth live source more target ∧ value.Within more := by
  rw [evaluate, bind_eq_ok_iff] at success
  obtain ⟨testValue, middle, first, success⟩ := success
  obtain ⟨more, front, -⟩ := inner first closed inside
  have branch : ∀ {expr : Expr}, evaluate limit env expr middle = .ok value target →
      ∃ all, LiveGrowth live source all target ∧ value.Within all := by
    intro expr taken
    obtain ⟨all, back, result⟩ := inner taken front.closed (inside.mono front.grown)
    exact ⟨all, front.trans back, result⟩
  split at success
  · exact branch success
  · exact branch success
  · cases success

/-- While the bound expression is evaluated, the fresh cell is live and unfilled. -/
private theorem letIn (inner : KeepsToLive limit) {name : String} {bound body : Expr}
    (success : evaluate (limit + 1) env (.letIn name bound body) source = .ok value target)
    (closed : Closed live source) (inside : env.Within live) :
    ∃ more, LiveGrowth live source more target ∧ value.Within more := by
  rw [evaluate_letIn, bind_eq_ok_iff] at success
  obtain ⟨boundValue, middle, first, success⟩ := success
  have own : (Env.recursive name source.size env).Within
      fun cell => live cell ∨ cell = source.size :=
    ⟨.inr rfl, inside.mono fun _ => .inl⟩
  obtain ⟨more, front, boundInside⟩ := inner first closed.reserve own
  have reserved : source.size < middle.size := by
    have := size_le_of_evaluate first
    rw [Store.size_reserve] at this
    exact this
  have filled := front.define reserved boundInside
  obtain ⟨all, back, result⟩ := inner success filled.closed (own.mono front.grown)
  exact ⟨all, filled.trans back, result⟩

private theorem apply (inner : KeepsToLive limit) {function argument : Expr}
    (success : evaluate (limit + 1) env (.apply function argument) source = .ok value target)
    (closed : Closed live source) (inside : env.Within live) :
    ∃ more, LiveGrowth live source more target ∧ value.Within more := by
  rw [evaluate, bind_eq_ok_iff] at success
  obtain ⟨functionValue, middle, first, success⟩ := success
  obtain ⟨more, front, functionInside⟩ := inner first closed inside
  split at success
  · obtain ⟨argumentValue, last, second, success⟩ := bind_eq_ok_iff.mp success
    obtain ⟨all, back, argumentInside⟩ := inner second front.closed (inside.mono front.grown)
    cases functionValue with
    | closure captured param body =>
      have extended : (captured.extend param argumentValue).Within all :=
        ⟨argumentInside, Env.Within.mono back.grown functionInside⟩
      obtain ⟨most, call, result⟩ := inner success back.closed extended
      exact ⟨most, (front.trans back).trans call, result⟩
    | primitive builtin =>
      obtain ⟨given, rfl⟩ := ofStep_eq_ok_iff.mp success
      exact ⟨all, front.trans back, Primitive.apply_within given argumentInside⟩
    | _ => cases success
  · cases success

end KeepsToLive

theorem keepsToLive (limit : Nat) : KeepsToLive limit := by
  induction limit with
  | zero => nofun
  | succ limit ih =>
    intro env expr source target value live success closed inside
    cases expr with
    | int | bool | nil =>
      cases success
      exact ⟨live, .refl closed, trivial⟩
    | lambda param body =>
      cases success
      exact ⟨live, .refl closed, inside⟩
    | var name =>
      have looked : Computation.ofStep (env.find source name) source = .ok value target := success
      obtain ⟨found, rfl⟩ := ofStep_eq_ok_iff.mp looked
      exact ⟨live, .refl closed, Env.find_within found closed inside⟩
    | binary op left right => exact ih.binary success closed inside
    | cond test consequent alternative => exact ih.cond success closed inside
    | letIn name bound body => exact ih.letIn success closed inside
    | apply function argument => exact ih.apply success closed inside
    -- The forms from outside of the language give no value.
    | unknown symbol left right =>
      rw [evaluate, bind_eq_ok_iff] at success
      obtain ⟨_, _, -, success⟩ := success
      obtain ⟨_, _, -, success⟩ := bind_eq_ok_iff.mp success
      cases success
    | embedded value =>
      rw [evaluate, Value.refuse, bind_eq_ok_iff] at success
      obtain ⟨_, _, -, success⟩ := success
      cases success

/-- What evaluation gives back reaches filled frames only, if the environment does. -/
theorem filled_of_evaluate {limit : Nat} {env : Env} {expr : Expr} {source target : Store}
    {value : Value} (success : evaluate limit env expr source = .ok value target)
    (filled : ∀ cell, Reaches source (.env env) cell → source.read? cell ≠ none) {cell : Nat}
    (reaches : Reaches target (.value value) cell) : target.read? cell ≠ none := by
  have inside : env.Within (Reaches source (.env env)) :=
    env_within_of_reaches env fun _ reached => reached
  obtain ⟨more, growth, result⟩ :=
    keepsToLive limit success (closed_reaches source (.env env)) inside
  intro unfilled
  obtain ⟨reached, empty⟩ := growth.pending cell (reaches.live growth.closed result) unfilled
  exact filled cell reached empty

/-- In a run from an environment that reaches filled frames only, each frame is filled at most once,
with the value of its own definition and as soon as that is given, and what is looked up through the
frame from then on is this value. The value that the run gives back reaches filled frames only. -/
theorem recursive_frames_filled_once (limit : Nat) (env : Env) (expr : Expr) (store : Store)
    (filled : ∀ cell, Reaches store (.env env) cell → store.read? cell ≠ none) :
    ∃ events,
      record limit env expr ⟨store, []⟩ = withEvents events (evaluate limit env expr store) ∧
      replay events store = storeAfter (evaluate limit env expr store) ∧
      (∀ before definition value after, events = before ++ .fill definition value :: after →
        FilledOnce store before definition value after) ∧
      (∀ before definition after, events = before ++ .reserve definition :: after →
        definition.cell = (replay before store).size ∧
          Concluded definition (replay before store) after) ∧
      ∀ value target, evaluate limit env expr store = .ok value target →
        ∀ cell, Reaches target (.value value) cell → target.read? cell ≠ none := by
  obtain ⟨events, ran, history⟩ := evaluate_recordedBy limit env expr store []
  refine ⟨events, ran, history.replayed, ?_, ?_, ?_⟩
  · rintro before definition value after rfl
    exact history.filledOnce
  · rintro before definition after rfl
    have orderly := (Orderly.append_iff.mp history.orderly).2
    exact ⟨orderly.1, history.conclusive.suffix.1⟩
  · intro value target success cell reaches
    exact filled_of_evaluate success filled reaches

/-- A frame that holds a closure over itself is filled, and so is the frame that a definition makes
in front of it. -/
theorem recursive_frames_filled_once_behind_cycle :
    let env : Env := .recursive "f" 0 .empty
    let store : Store := ⟨#[some (.closure env "x" (.var "f"))]⟩
    let expr : Expr := .letIn "g" (.lambda "y" (.apply (.var "f") (.var "g")))
      (.binary .cons (.var "g") (.var "f"))
    (∀ cell, Reaches store (.env env) cell → store.read? cell ≠ none) ∧
      ∃ value target, evaluate 3 env expr store = .ok value target ∧
        ∀ cell, Reaches target (.value value) cell → target.read? cell ≠ none := by
  intro env store expr
  have closed : Closed (· = 0) store := by
    rintro cell value rfl read
    cases read
    exact ⟨rfl, trivial⟩
  have filled : ∀ cell, Reaches store (.env env) cell → store.read? cell ≠ none := by
    intro cell reaches
    obtain rfl : cell = 0 := reaches.live closed ⟨rfl, trivial⟩
    nofun
  obtain ⟨_, _, _, _, _, reached⟩ := recursive_frames_filled_once 3 env expr store filled
  exact ⟨filled, _, _, rfl, reached _ _ rfl⟩

end MiniFun
