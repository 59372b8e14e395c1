import Mathlib.Logic.Relation
import MiniFun.Proofs.FrameReachability
import MiniFun.Proofs.FreeNames

/-! # What evaluation can get hold of

Evaluation works with what it is given: the parts of its environment, the values in the frames that
these reach, and what it builds from them. The nodes that it can get hold of are its territory. A
territory is closed: with a node it has everything that the node holds. Evaluation adds nodes to it,
and whatever can be reached from its result is among them.

A policy says which code is evaluated, which functions it makes and which errors it may raise. It is
kept by a whole run if every closure of the territory keeps it: the function is one that may be
made, its code is allowed, and where a lookup of one of its free names fails, the error is one that
may be raised. The critical case is a definition whose bound expression looks up its own name. If
the bound expression is a function, the frame is filled before the function can be called.
-/

namespace MiniFun

/-- The second node can be reached from the first, in any number of steps. -/
def Leads (store : Store) : Node → Node → Prop :=
  Relation.ReflTransGen (Holds store)

/-- What can be reached from a node that is reached can be reached. -/
theorem Leads.reaches {store : Store} {node other : Node} {cell : Nat}
    (leads : Leads store node other) (reaches : Reaches store other cell) :
    Reaches store node cell := by
  induction leads using Relation.ReflTransGen.head_induction_on with
  | refl => exact reaches
  | head holds _ ih => exact .through holds ih

/-- A frame that is reached belongs to an environment to which the way leads. -/
theorem Reaches.leads {store : Store} {node : Node} {cell : Nat}
    (reaches : Reaches store node cell) :
    ∃ name rest, Leads store node (.env (.recursive name cell rest)) := by
  induction reaches with
  | frame name cell rest => exact ⟨name, rest, .refl⟩
  | through holds _ ih =>
    obtain ⟨name, rest, leads⟩ := ih
    exact ⟨name, rest, .head holds leads⟩

/-- From a node that holds live cells only, only such nodes can be reached. -/
theorem Leads.within {live : Nat → Prop} {store : Store} {node other : Node}
    (leads : Leads store node other) (closed : Closed live store) (inside : node.Within live) :
    other.Within live := by
  induction leads with
  | refl => exact inside
  | tail _ holds ih => exact holds.within closed ih

def Throughout (store : Store) (good : Node → Prop) (node : Node) : Prop :=
  ∀ other, Leads store node other → good other

namespace Throughout

variable {store : Store} {good : Node → Prop}

theorem part {node other : Node} (throughout : Throughout store good node)
    (holds : Holds store node other) : Throughout store good other :=
  fun last leads => throughout last (.head holds leads)

theorem of_parts {node : Node} (own : good node)
    (parts : ∀ other, Holds store node other → Throughout store good other) :
    Throughout store good node := by
  intro last leads
  obtain rfl | ⟨other, holds, further⟩ := leads.cases_head
  · exact own
  · exact parts other holds last further

theorem extend {env : Env} {value : Value} (behind : Throughout store good (.env env))
    (content : Throughout store good (.value value)) (name : String)
    (own : good (.env (env.extend name value))) :
    Throughout store good (.env (env.extend name value)) := by
  refine of_parts own fun other holds => ?_
  cases holds with
  | bound => exact content
  | behindBound => exact behind

end Throughout

namespace Expr

def parts : Expr → List Expr
  | binary _ left right | unknown _ left right => [left, right]
  | cond test consequent alternative => [test, consequent, alternative]
  | letIn _ bound body => [bound, body]
  | lambda _ body => [body]
  | apply function argument => [function, argument]
  | int _ | bool _ | var _ | nil | embedded _ => []

def isLambda : Expr → Bool
  | lambda .. => true
  | _ => false

end Expr

/-! ## Policies -/

/-- Whether evaluation raises the fault. The only wording of host code is that of the
function that refuses every argument. -/
def TypeFault.isRaised : TypeFault → Bool
  | reported message => message == "host failure"
  | _ => true

/-- Which code may be evaluated, which functions it may make, and which errors it may raise. -/
structure Policy where
  allows : Expr → Prop
  /-- The functions that may be made, by their parameter and their body. -/
  makes : String → Expr → Prop
  raises : Error → Prop
  allows_part : ∀ {whole part}, allows whole → part ∈ whole.parts → allows part
  makes_lambda : ∀ {param body}, allows (.lambda param body) → makes param body
  raises_mistyped : ∀ {fault}, fault.isRaised = true → raises (.mistyped fault)
  raises_emptyList : raises (.emptyList .head)
  raises_unknown : ∀ {symbol left right}, allows (.unknown symbol left right) →
    raises (.internal (.unknownOperator symbol))
  raises_embedded : ∀ {value node}, allows (.embedded value) →
    raises (.internal (.unevaluable node))
  /-- Only a definition that is no function can read its own name too early. -/
  raises_unfilled : ∀ {name bound body}, allows (.letIn name bound body) →
    bound.isLambda = false → bound.Free name →
      raises (.unbound name (some Error.selfReference))

namespace Policy

/-- The code is allowed, and its free names are bound as far as they have to be. -/
structure Fits (policy : Policy) (store : Store) (env : Env) (expr : Expr) : Prop where
  allowed : policy.allows expr
  lookups : ∀ {name cause}, expr.Free name → env.find store name = .error cause →
    policy.raises cause

variable {policy : Policy} {store later : Store} {env : Env}

namespace Fits

theorem mono {expr : Expr} (fits : policy.Fits store env expr) (grows : store.Grows later) :
    policy.Fits later env expr :=
  ⟨fits.allowed, fun free failed => fits.lookups free (grows.find_error failed)⟩

/-- A part in which no further names are bound fits where the whole does. -/
theorem part {whole part : Expr} (fits : policy.Fits store env whole) (member : part ∈ whole.parts)
    (free : ∀ name, part.Free name → whole.Free name) : policy.Fits store env part :=
  ⟨policy.allows_part fits.allowed member, fun occurs => fits.lookups (free _ occurs)⟩

/-- The body of a function fits the environment of the call, whatever the argument. -/
theorem call {param : String} {body : Expr} (fits : policy.Fits store env (.lambda param body))
    (argument : Value) : policy.Fits store (env.extend param argument) body := by
  refine ⟨policy.allows_part fits.allowed (by simp [Expr.parts]), ?_⟩
  intro name cause free failed
  rw [Env.extend, Env.find] at failed
  split at failed
  · cases failed
  · rename_i differs
    exact fits.lookups ⟨differs, free⟩ failed

/-- Under a definition, the code inside fits as long as looking up the defined name is no matter. -/
theorem define {name : String} {bound body part : Expr}
    (fits : policy.Fits store env (.letIn name bound body))
    (member : part = bound ∨ part = body) (grows : store.Grows later) {cell : Nat}
    (own : part.Free name → later.read? cell = none →
      policy.raises (.unbound name (some Error.selfReference))) :
    policy.Fits later (.recursive name cell env) part := by
  refine ⟨policy.allows_part fits.allowed (by simpa [Expr.parts] using member), ?_⟩
  intro other cause free failed
  rw [Env.find] at failed
  split at failed
  · rename_i same
    subst same
    cases known : later.read? cell with
    | none =>
      rw [known] at failed
      cases failed
      exact own free known
    | some value =>
      rw [known] at failed
      cases failed
  · rename_i differs
    have outside : (Expr.letIn name bound body).Free other := by
      obtain rfl | rfl := member
      · exact ⟨differs, .inl free⟩
      · exact ⟨differs, .inr free⟩
    exact fits.lookups outside (grows.find_error failed)

end Fits

end Policy

/-! ## Closed sets of nodes -/

/-- Only what a frame holds depends on the store. -/
theorem Holds.elsewhere {store : Store} {node other : Node} (holds : Holds store node other)
    (another : Store) :
    Holds another node other ∨ ∃ name cell rest value, node = .env (.recursive name cell rest) ∧
      other = .value value ∧ store.read? cell = some value := by
  cases holds with
  | head head tail => exact .inl (.head head tail)
  | tail head tail => exact .inl (.tail head tail)
  | captured env param body => exact .inl (.captured env param body)
  | bound name value rest => exact .inl (.bound name value rest)
  | behindBound name value rest => exact .inl (.behindBound name value rest)
  | behindRecursive name cell rest => exact .inl (.behindRecursive name cell rest)
  | inFrame known => exact .inr ⟨_, _, _, _, rfl, rfl, known⟩

/-- With a node, everything that it holds is known. -/
structure HoldsKnown (store : Store) (known : Node → Prop) : Prop where
  part : ∀ {node other}, known node → Holds store node other → known other

namespace HoldsKnown

variable {store : Store} {known : Node → Prop}

theorem leads (closed : HoldsKnown store known) {node other : Node} (inside : known node)
    (leads : Leads store node other) : known other := by
  induction leads with
  | refl => exact inside
  | tail _ holds ih => exact closed.part ih holds

private theorem adjoin (closed : HoldsKnown store known) {node : Node}
    (parts : ∀ other, Holds store node other → known other) :
    HoldsKnown store fun other => known other ∨ other = node := by
  refine ⟨?_⟩
  rintro first second (inside | rfl) holds
  · exact .inl (closed.part inside holds)
  · exact .inl (parts second holds)

/-- A fresh cell holds nothing. -/
private theorem reserve (closed : HoldsKnown store known) : HoldsKnown store.reserve known := by
  refine ⟨fun {node other} inside holds => ?_⟩
  obtain old | ⟨name, cell, rest, value, rfl, rfl, read⟩ := holds.elsewhere store
  · exact closed.part inside old
  · rw [Store.read?_reserve] at read
    exact closed.part inside (.inFrame read)

/-- A cell may be filled with what is known already. -/
private theorem fill (closed : HoldsKnown store known) {cell : Nat} {value : Value}
    (reserved : cell < store.size) (inside : known (.value value)) :
    HoldsKnown (store.fill cell value) known := by
  refine ⟨fun {node other} isKnown holds => ?_⟩
  obtain old | ⟨name, own, rest, content, rfl, rfl, read⟩ := holds.elsewhere store
  · exact closed.part isKnown old
  · by_cases same : cell = own
    · subst same
      rw [Store.read?_fill_self reserved] at read
      cases read
      exact inside
    · rw [Store.read?_fill_other same] at read
      exact closed.part isKnown (.inFrame read)

/-- What is found in a known environment is known. -/
private theorem find (closed : HoldsKnown store known) {env : Env} (inside : known (.env env))
    {name : String} {value : Value} (found : env.find store name = .ok value) :
    known (.value value) := by
  induction env with
  | empty => cases found
  | bind bound content rest ih =>
    rw [Env.find] at found
    split at found
    · cases found
      exact closed.part inside (.bound ..)
    · exact ih (closed.part inside (.behindBound ..)) found
  | recursive bound cell rest ih =>
    rw [Env.find] at found
    split at found
    · cases read : store.read? cell with
      | none =>
        rw [read] at found
        cases found
      | some content =>
        rw [read] at found
        cases found
        exact closed.part inside (.inFrame read)
    · exact ih (closed.part inside (.behindRecursive ..)) found

end HoldsKnown

/-! ## Territories -/

/-- A closed set of nodes in which every closure keeps the policy. -/
structure Territory (policy : Policy) (store : Store) (known : Node → Prop) : Prop where
  closed : HoldsKnown store known
  made : ∀ {env param body}, known (.value (.closure env param body)) → policy.makes param body
  fits : ∀ {env param body}, known (.value (.closure env param body)) →
    ∀ argument, policy.Fits store (env.extend param argument) body

/-- The second territory is one that evaluation may reach from the first. It makes no error
values. -/
structure Spreads (policy : Policy) (known : Node → Prop) (store : Store) (more : Node → Prop) :
    Prop where
  territory : Territory policy store more
  grown : ∀ {node}, known node → more node
  noFailed : ∀ {message}, more (.value (.failed message)) → known (.value (.failed message))

section

variable {policy : Policy} {store later : Store} {known more all : Node → Prop}

namespace Spreads

theorem refl (territory : Territory policy store known) : Spreads policy known store known :=
  ⟨territory, fun inside => inside, fun inside => inside⟩

theorem trans (front : Spreads policy known store more) (back : Spreads policy more later all) :
    Spreads policy known later all :=
  ⟨back.territory, fun inside => back.grown (front.grown inside),
    fun inside => front.noFailed (back.noFailed inside)⟩

end Spreads

namespace Territory

/-- A node that holds known nodes only may be added. -/
theorem adjoin (territory : Territory policy store known) (node : Node)
    (parts : ∀ other, Holds store node other → known other)
    (made : ∀ env param body, node = .value (.closure env param body) → policy.makes param body)
    (fits : ∀ env param body, node = .value (.closure env param body) →
      ∀ argument, policy.Fits store (env.extend param argument) body)
    (plain : ∀ message, node ≠ .value (.failed message)) :
    Spreads policy known store fun other => known other ∨ other = node where
  territory :=
    { closed := territory.closed.adjoin parts
      made := by
        rintro env param body (inside | same)
        · exact territory.made inside
        · exact made env param body same.symm
      fits := by
        rintro env param body (inside | same)
        · exact territory.fits inside
        · exact fits env param body same.symm }
  grown inside := .inl inside
  noFailed := by
    rintro message (inside | same)
    · exact inside
    · exact (plain message same.symm).elim

/-- The environment of a call. -/
theorem bind (territory : Territory policy store known) {env : Env} {value : Value}
    (inside : known (.env env)) (argument : known (.value value)) (param : String) :
    Spreads policy known store
      fun other => known other ∨ other = .env (env.extend param value) := by
  refine territory.adjoin _ (fun other holds => ?_) nofun nofun nofun
  cases holds with
  | bound => exact argument
  | behindBound => exact inside

/-- The environment of a definition whose frame is not filled yet. -/
theorem recursive (territory : Territory policy store known) {env : Env} (inside : known (.env env))
    (name : String) {cell : Nat} (unfilled : store.read? cell = none) :
    Spreads policy known store
      fun other => known other ∨ other = .env (.recursive name cell env) := by
  refine territory.adjoin _ (fun other holds => ?_) nofun nofun nofun
  cases holds with
  | inFrame read => cases unfilled.symm.trans read
  | behindRecursive => exact inside

theorem reserve (territory : Territory policy store known) :
    Territory policy store.reserve known :=
  ⟨territory.closed.reserve, territory.made, fun inside argument =>
    (territory.fits inside argument).mono (.reserve store)⟩

theorem fill (territory : Territory policy store known) {cell : Nat} {value : Value}
    (reserved : cell < store.size) (unfilled : store.read? cell = none)
    (inside : known (.value value)) : Territory policy (store.fill cell value) known :=
  ⟨territory.closed.fill reserved inside, territory.made, fun isKnown argument =>
    (territory.fits isKnown argument).mono (.fill unfilled value)⟩

/-- A function that is defined is made at once, and its frame is filled before any call. -/
theorem defineFunction (territory : Territory policy store known) {env : Env}
    (inside : known (.env env)) {name param : String} {code body : Expr}
    (fits : policy.Fits store env (.letIn name (.lambda param code) body)) {function : Value}
    (made : function = .closure (.recursive name store.size env) param code) :
    ∃ more, Spreads policy known (store.reserve.fill store.size function) more ∧
      more (.env (.recursive name store.size env)) := by
  have unfilled : store.reserve.read? store.size = none := by
    rw [Store.read?_reserve, Store.read?_eq_none (Nat.le_refl _)]
  have reserved : store.size < store.reserve.size := by simp
  have entered := territory.reserve.recursive inside name unfilled
  have parts : ∀ other, Holds store.reserve (.value function) other →
      known other ∨ other = .env (.recursive name store.size env) := by
    intro other holds
    rw [made] at holds
    cases holds with
    | captured => exact .inr rfl
  have own : policy.Fits (store.reserve.fill store.size function)
      (.recursive name store.size env) (.lambda param code) := by
    refine fits.define (.inl rfl) ((Store.Grows.reserve store).trans (.fill unfilled function))
      fun _ empty => ?_
    rw [Store.read?_fill_self reserved] at empty
    cases empty
  refine ⟨_, ⟨⟨(entered.territory.closed.adjoin parts).fill reserved (.inr rfl), ?_, ?_⟩, ?_, ?_⟩,
    .inl (.inr rfl)⟩
  · rintro captured other inner (old | same)
    · exact entered.territory.made old
    · rw [made] at same
      cases same
      exact policy.makes_lambda own.allowed
  · rintro captured other inner (old | same) argument
    · exact (entered.territory.fits old argument).mono (.fill unfilled function)
    · rw [made] at same
      cases same
      exact own.call argument
  · exact fun node => .inl (.inl node)
  · rintro message (old | same)
    · exact entered.noFailed old
    · rw [made] at same
      cases same

end Territory

/-! ## Results within the territory -/

/-- The result is a value of a territory that grew out of the given one, an error that may be
raised, or a limit of the interpreter. -/
inductive Keeps (policy : Policy) (known : Node → Prop) :
    EStateM.Result Failure Store Value → Prop
  | ok {value : Value} {target : Store} {more : Node → Prop}
      (spreads : Spreads policy known target more) (inside : more (.value value)) :
      Keeps policy known (.ok value target)
  | error {cause : Error} {target : Store} (raises : policy.raises cause) :
      Keeps policy known (.error (.error cause) target)
  | limit {failure : Failure} {target : Store} (noError : ∀ cause, failure ≠ .error cause) :
      Keeps policy known (.error failure target)

namespace Keeps

theorem after {result : EStateM.Result Failure Store Value}
    (spreads : Spreads policy known store more) (keeps : Keeps policy more result) :
    Keeps policy known result := by
  cases keeps with
  | ok further inside => exact .ok (spreads.trans further) inside
  | error raises => exact .error raises
  | limit noError => exact .limit noError

/-- A sequence keeps to the territory if its parts do. -/
theorem bind {first : Computation Value} {second : Value → Computation Value}
    (front : Keeps policy known (first store))
    (back : ∀ {value middle more}, first store = .ok value middle →
      Spreads policy known middle more → more (.value value) →
        Keeps policy more (second value middle)) :
    Keeps policy known ((first >>= second) store) := by
  generalize ran : first store = result at front
  cases front with
  | ok spreads inside =>
    rw [bind_of_ok ran]
    exact (back ran spreads inside).after spreads
  | error raises =>
    rw [bind_of_error ran]
    exact .error raises
  | limit noError =>
    rw [bind_of_error ran]
    exact .limit noError

/-- A value that is known already. -/
theorem given {value : Value} (territory : Territory policy store known)
    (inside : known (.value value)) :
    Keeps policy known ((pure value : Computation Value) store) :=
  .ok (.refl territory) inside

/-- A value that is made from known ones, and is no closure. -/
theorem made {value : Value} (territory : Territory policy store known)
    (parts : ∀ other, Holds store (.value value) other → known other)
    (plain : value.isFunction = false) (sound : value.isFailed = false) :
    Keeps policy known ((pure value : Computation Value) store) := by
  refine .ok (territory.adjoin _ parts ?_ ?_ ?_) (.inr rfl)
  · rintro env param body ⟨⟩
    cases plain
  · rintro env param body ⟨⟩
    cases plain
  · rintro message ⟨⟩
    cases sound

/-- A value that holds nothing. -/
theorem simple {value : Value} (territory : Territory policy store known)
    (noParts : ∀ other, ¬ Holds store (.value value) other) (plain : value.isFunction = false)
    (sound : value.isFailed = false) :
    Keeps policy known ((pure value : Computation Value) store) :=
  .made territory (fun other holds => (noParts other holds).elim) plain sound

theorem tooDeep : Keeps policy known ((MonadExcept.throw .tooDeep : Computation Value) store) := by
  refine .limit fun cause same => ?_
  cases same

theorem throw {cause : Error} (raises : policy.raises cause) :
    Keeps policy known ((MonadExcept.throw (.error cause) : Computation Value) store) :=
  .error raises

end Keeps

/-! ## Operators and functions of the host -/

private theorem Operator.mistyped_of_onInts {operation : Int → Int → Value} {left right : Value}
    {cause : Error} (failed : onInts operation left right = .error cause) :
    ∃ fault, cause = .mistyped fault ∧ fault.isRaised = true := by
  unfold onInts at failed
  split at failed
  · cases failed
  · cases failed
    exact ⟨_, rfl, rfl⟩

private theorem Operator.mistyped_of_onBools {operation : Bool → Bool → Bool} {left right : Value}
    {cause : Error} (failed : onBools operation left right = .error cause) :
    ∃ fault, cause = .mistyped fault ∧ fault.isRaised = true := by
  unfold onBools at failed
  split at failed
  · cases failed
  · cases failed
    exact ⟨_, rfl, rfl⟩

private theorem Operator.mistyped_of_onEquality {op : Operator} {answer : Bool → Bool}
    {left right : Value} {cause : Error} (failed : onEquality op answer left right = .error cause) :
    ∃ fault, cause = .mistyped fault ∧ fault.isRaised = true := by
  unfold onEquality at failed
  split at failed
  · cases failed
  · cases failed
    exact ⟨_, rfl, rfl⟩

/-- Operators fail on operands of the wrong type only. -/
theorem Operator.mistyped_of_apply {op : Operator} {left right : Value} {cause : Error}
    (failed : op.apply left right = .error cause) :
    ∃ fault, cause = .mistyped fault ∧ fault.isRaised = true := by
  cases op with
  | cons => cases failed
  | plus | minus | times | less | lessEqual => exact mistyped_of_onInts failed
  | equal | notEqual => exact mistyped_of_onEquality failed
  | both | either => exact mistyped_of_onBools failed

theorem Keeps.operator (territory : Territory policy store known) (op : Operator)
    {left right : Value} (first : known (.value left)) (second : known (.value right)) :
    Keeps policy known (Computation.ofStep (op.apply left right) store) := by
  cases given : op.apply left right with
  | error cause =>
    obtain ⟨fault, rfl, raised⟩ := Operator.mistyped_of_apply given
    exact .throw (policy.raises_mistyped raised)
  | ok value =>
    have operates : Operates op left right (.value value) := operates_iff.mpr (by rw [given]; rfl)
    cases operates with
    | cons =>
      refine .made territory (fun other holds => ?_) rfl rfl
      cases holds with
      | head => exact first
      | tail => exact second
    | _ => exact .simple territory (by intro other holds; cases holds) rfl rfl

/-- What functions of the host give back is their argument or a part of it. -/
theorem Keeps.builtin (territory : Territory policy store known) (primitive : Primitive)
    {argument : Value} (inside : known (.value argument)) :
    Keeps policy known (Computation.ofStep (primitive.apply argument) store) := by
  obtain ⟨function, _⟩ := primitive
  cases function with
  | head =>
    cases argument with
    | pair head tail => exact .given territory (territory.closed.part inside (.head ..))
    | nil => exact .throw policy.raises_emptyList
    | _ => exact .throw (policy.raises_mistyped rfl)
  | tail =>
    cases argument with
    | pair head tail => exact .given territory (territory.closed.part inside (.tail ..))
    | nil => exact .given territory inside
    | _ => exact .throw (policy.raises_mistyped rfl)
  | identity => exact .given territory inside
  | failing => exact .throw (policy.raises_mistyped rfl)

/-! ## Evaluation keeps to its territory -/

/-- Within the limit, code that fits its environment keeps to the territory. -/
def KeepsTerritory (policy : Policy) (limit : Nat) : Prop :=
  ∀ {store : Store} {known : Node → Prop} {env : Env} {expr : Expr},
    Territory policy store known → known (.env env) → policy.Fits store env expr →
      Keeps policy known (evaluate limit env expr store)

namespace KeepsTerritory

variable {limit : Nat} (inner : KeepsTerritory policy limit)
  (territory : Territory policy store known) {env : Env} (inside : known (.env env))
include inner territory inside

private theorem binary {op : Operator} {left right : Expr}
    (fits : policy.Fits store env (.binary op left right)) :
    Keeps policy known (evaluate (limit + 1) env (.binary op left right) store) := by
  have first : policy.Fits store env left := fits.part (by simp [Expr.parts]) fun _ => .inl
  have second : policy.Fits store env right := fits.part (by simp [Expr.parts]) fun _ => .inr
  refine .bind (inner territory inside first) fun ran spreads leftKnown => ?_
  refine .bind (inner spreads.territory (spreads.grown inside)
    (second.mono (grows_of_evaluate ran))) fun _ further rightKnown => ?_
  exact .operator further.territory op (further.grown leftKnown) rightKnown

private theorem unknown {symbol : String} {left right : Expr}
    (fits : policy.Fits store env (.unknown symbol left right)) :
    Keeps policy known (evaluate (limit + 1) env (.unknown symbol left right) store) := by
  have first : policy.Fits store env left := fits.part (by simp [Expr.parts]) fun _ => .inl
  have second : policy.Fits store env right := fits.part (by simp [Expr.parts]) fun _ => .inr
  refine .bind (inner territory inside first) fun ran spreads _ => ?_
  refine .bind (inner spreads.territory (spreads.grown inside)
    (second.mono (grows_of_evaluate ran))) fun _ _ _ => ?_
  exact .throw (policy.raises_unknown fits.allowed)

private theorem cond {test consequent alternative : Expr}
    (fits : policy.Fits store env (.cond test consequent alternative)) :
    Keeps policy known (evaluate (limit + 1) env (.cond test consequent alternative) store) := by
  have first : policy.Fits store env test := fits.part (by simp [Expr.parts]) fun _ => .inl
  have second : policy.Fits store env consequent :=
    fits.part (by simp [Expr.parts]) fun _ => .inr ∘ .inl
  have third : policy.Fits store env alternative :=
    fits.part (by simp [Expr.parts]) fun _ => .inr ∘ .inr
  refine .bind (inner territory inside first) fun ran spreads _ => ?_
  have grows := grows_of_evaluate ran
  split
  · exact inner spreads.territory (spreads.grown inside) (second.mono grows)
  · exact inner spreads.territory (spreads.grown inside) (third.mono grows)
  · exact .throw (policy.raises_mistyped rfl)

private theorem apply {function argument : Expr}
    (fits : policy.Fits store env (.apply function argument)) :
    Keeps policy known (evaluate (limit + 1) env (.apply function argument) store) := by
  have first : policy.Fits store env function := fits.part (by simp [Expr.parts]) fun _ => .inl
  have second : policy.Fits store env argument := fits.part (by simp [Expr.parts]) fun _ => .inr
  refine .bind (inner territory inside first) ?_
  intro functionValue _ _ ran spreads functionKnown
  split
  · refine .bind (inner spreads.territory (spreads.grown inside)
      (second.mono (grows_of_evaluate ran))) fun {argumentValue _ _} _ further argumentKnown => ?_
    cases functionValue with
    | closure captured param body =>
      have callee := further.grown functionKnown
      have captures := further.territory.closed.part callee (.captured ..)
      have entered := further.territory.bind captures argumentKnown param
      exact .after entered
        (inner entered.territory (.inr rfl) (further.territory.fits callee argumentValue))
    | primitive builtin => exact .builtin further.territory builtin argumentKnown
    | _ => exact .throw (policy.raises_mistyped rfl)
  · exact .throw (policy.raises_mistyped rfl)

private theorem letIn {name : String} {bound body : Expr}
    (fits : policy.Fits store env (.letIn name bound body)) :
    Keeps policy known (evaluate (limit + 1) env (.letIn name bound body) store) := by
  -- Once the frame is filled, the defined name is no obstacle to the body.
  have finish : ∀ {value : Value} {middle : Store} {before more : Node → Prop},
      Spreads policy before (middle.fill store.size value) more →
      more (.env (.recursive name store.size env)) → store.Grows (middle.fill store.size value) →
      store.size < middle.size →
      Keeps policy before (evaluate limit (.recursive name store.size env) body
        (middle.fill store.size value)) := by
    intro value middle before more spreads own grows reserved
    refine .after spreads (inner spreads.territory own (fits.define (.inr rfl) grows ?_))
    intro _ unfilled
    rw [Store.read?_fill_self reserved] at unfilled
    cases unfilled
  have unfilled : store.reserve.read? store.size = none := by
    rw [Store.read?_reserve, Store.read?_eq_none (Nat.le_refl _)]
  rw [evaluate_letIn]
  cases function : bound.isLambda with
  | true =>
    cases bound with
    | lambda param code =>
      cases limit with
      | zero => exact .tooDeep
      | succ limit =>
        obtain ⟨more, spreads, own⟩ := territory.defineFunction inside fits rfl
        exact finish spreads own
          ((Store.Grows.reserve store).trans (.fill unfilled _)) (by simp)
    | _ => cases function
  | false =>
    have entered := territory.reserve.recursive inside name unfilled
    have own : policy.Fits store.reserve (.recursive name store.size env) bound :=
      fits.define (.inl rfl) (.reserve store) fun free _ =>
        policy.raises_unfilled fits.allowed function free
    refine .after entered (.bind (inner entered.territory (.inr rfl) own) ?_)
    intro value middle more ran spreads boundKnown
    have older : store.size < store.reserve.size := by simp
    have reserved : store.size < middle.size := Nat.lt_of_lt_of_le older (size_le_of_evaluate ran)
    have unfilledStill : middle.read? store.size = none :=
      (read?_of_evaluate ran older).trans unfilled
    have filled := spreads.territory.fill reserved unfilledStill boundKnown
    have grows := (Store.Grows.reserve store).trans (grows_of_evaluate ran)
    exact finish (.refl filled) (spreads.grown (.inr rfl))
      (grows.trans (.fill unfilledStill value)) reserved

end KeepsTerritory

/-- Evaluation keeps to its territory for as long as it goes on. -/
theorem keepsTerritory (policy : Policy) (limit : Nat) : KeepsTerritory policy limit := by
  induction limit with
  | zero =>
    intro store known env expr territory inside fits
    exact .tooDeep
  | succ limit ih =>
    intro store known env expr territory inside fits
    cases expr with
    | int | bool | nil => exact .simple territory (by intro other holds; cases holds) rfl rfl
    | var name =>
      have looked : Keeps policy known (Computation.ofStep (env.find store name) store) := by
        cases found : env.find store name with
        | ok value => exact .given territory (territory.closed.find inside found)
        | error cause => exact .throw (fits.lookups rfl found)
      exact looked
    | lambda param body =>
      refine .ok (territory.adjoin (.value (.closure env param body)) ?_ ?_ ?_ ?_) (.inr rfl)
      · intro other holds
        cases holds with
        | captured => exact inside
      · rintro _ _ _ ⟨⟩
        exact policy.makes_lambda fits.allowed
      · rintro _ _ _ ⟨⟩ argument
        exact fits.call argument
      · intro message same
        cases same
    | binary op left right => exact ih.binary territory inside fits
    | unknown symbol left right => exact ih.unknown territory inside fits
    | cond test consequent alternative => exact ih.cond territory inside fits
    | letIn name bound body => exact ih.letIn territory inside fits
    | apply function argument => exact ih.apply territory inside fits
    | embedded value =>
      rw [evaluate, Value.refuse]
      cases value.form? with
      | none =>
        refine .limit fun cause same => ?_
        cases same
      | some node => exact .throw (policy.raises_embedded fits.allowed)

end

end MiniFun
