import MiniFun.Proofs.ErrorValues
import MiniFun.Proofs.Simulation

/-! # Evaluation depends on the bindings of free names only

Two environments in which the free names of a program are looked up with the same outcome lead to
the same outcome of the program, be it a value or a failure. The values are not equal, since
closures capture whole environments, but they are built in the same way and print the same. The
environments may bind other names as they like, and may keep the same value in different frames.

What a run prints does not depend on the order of the bindings of the host program, nor on bindings
that the program has no use for.
-/

namespace MiniFun

/-! ## Values that look the same -/

/-- The values are built in the same way, and their closures from the same code. -/
inductive Value.Resembles : Value → Value → Prop
  | int (value : Int) : Resembles (.int value) (.int value)
  | bool (value : Bool) : Resembles (.bool value) (.bool value)
  | nil : Resembles .nil .nil
  | primitive (function : Primitive) : Resembles (.primitive function) (.primitive function)
  | failed (message : String) : Resembles (.failed message) (.failed message)
  | pair {head head' tail tail' : Value} : Resembles head head' → Resembles tail tail' →
      Resembles (.pair head tail) (.pair head' tail')
  | closure (env env' : Env) (param : String) (body : Expr) :
      Resembles (.closure env param body) (.closure env' param body)

/-- Values that look the same print the same. -/
theorem Value.Resembles.text?_eq {value value' : Value} (resembles : value.Resembles value') :
    value.text? = value'.text? := by
  induction resembles with
  | int | bool | nil | primitive | failed => rfl
  | pair _ _ ihHead ihTail => rw [Value.text?, Value.text?, ihHead, ihTail]
  | closure => rw [Value.text?, Value.text?]

/-- The two results are the same as far as a program can tell: values that look and print the same,
or the same failure. -/
inductive SameOutcome :
    EStateM.Result Failure Store Value → EStateM.Result Failure Store Value → Prop
  | ok {value value' : Value} {target target' : Store} (resembles : value.Resembles value')
      (shown : value.text? = value'.text?) : SameOutcome (.ok value target) (.ok value' target')
  | error (failure : Failure) {target target' : Store} :
      SameOutcome (.error failure target) (.error failure target')

theorem SameOutcome.settled {result result' : EStateM.Result Failure Store Value}
    (same : SameOutcome result result') : SameOutcome (settled result) (settled result') := by
  cases same with
  | ok resembles shown => exact .ok resembles shown
  | error failure =>
    cases failure with
    | error cause => exact .ok (.failed cause.message) rfl
    | _ => exact .error _

theorem Alike.resembles {world : World} {value value' : Value} :
    Alike .exact world value value' → value.Resembles value'
  | .int value => .int value
  | .bool value => .bool value
  | .nil => .nil
  | .primitive function => .primitive function
  | .failed message => .failed message
  | .pair head tail => .pair head.resembles tail.resembles
  | .closure _ names code _ _ => by
    obtain rfl := names
    obtain rfl := code.eq
    exact .closure ..

theorem Together.sameOutcome {world : World} {result result' : EStateM.Result Failure Store Value}
    (together : Together .exact world result result') : SameOutcome result result' := by
  cases together with
  | ok _ _ alike => exact .ok alike.resembles alike.resembles.text?_eq
  | error alike =>
    obtain rfl := alike.eq
    exact .error _

/-! ## One store seen from both sides -/

/-- The world with the same store on both sides. Live cells stand for each other if they hold the
same. -/
def World.ofStore (store : Store) (live : Nat → Prop) : World where
  left := store
  right := store
  linked cell cell' := live cell ∧ live cell' ∧ store.read? cell = store.read? cell'

section

variable {latitude : Latitude} {store : Store} {live : Nat → Prop}

mutual

/-- A value that holds live cells only is alike to itself. -/
private theorem Alike.of_within : ∀ {value : Value}, value.Within live →
    Alike latitude (.ofStore store live) value value
  | .int value, _ => .int value
  | .bool value, _ => .bool value
  | .nil, _ => .nil
  | .primitive function, _ => .primitive function
  | .failed message, _ => .failed message
  | .pair _ _, inside => .pair (Alike.of_within inside.1) (Alike.of_within inside.2)
  | .closure env param body, inside => by
    refine .closure Eq (latitude.names_self param)
      (.refl latitude.names_self fun name _ => ?_) ?_ ?_
    · by_cases bound : name = param
      · exact .inl ⟨bound, bound⟩
      · exact .inr ⟨bound, bound, rfl⟩
    · rintro name _ rfl
      exact latitude.scope_self env name
    · rintro name _ rfl
      exact Agree.of_within inside name

/-- An environment that holds live cells only agrees with itself. -/
theorem Agree.of_within : ∀ {env : Env}, env.Within live → ∀ name,
    Agree latitude (.ofStore store live) name name (env.locate name) (env.locate name)
  | .empty, _, name => .missing name
  | .bind bound value rest, inside, name => by
    rw [Env.locate]
    split
    · exact .held (Alike.of_within inside.1)
    · exact Agree.of_within inside.2 name
  | .recursive bound cell rest, inside, name => by
    rw [Env.locate]
    split
    · exact .linked ⟨inside.1, inside.1, rfl⟩
    · exact Agree.of_within inside.2 name

end

variable (closed : Closed live store) (reserved : ∀ cell, live cell → cell < store.size)
include closed reserved

theorem World.Sound.ofStore : (World.ofStore store live).Sound latitude where
  reserved := fun ⟨first, second, _⟩ => ⟨reserved _ first, reserved _ second⟩
  cells := by
    rintro cell cell' ⟨first, _, same⟩
    simp only [World.ofStore, ← same]
    cases known : store.read? cell with
    | none => exact .none
    | some value => exact .some (.of_within (closed cell value first known))

end

def Place.Within (live : Nat → Prop) : Place → Prop
  | missing => True
  | held value => value.Within live
  | frame cell => live cell

private theorem Env.Within.locate {live : Nat → Prop} (name : String) {env : Env}
    (inside : env.Within live) : (env.locate name).Within live := by
  induction env with
  | empty => trivial
  | bind bound value rest ih | recursive bound cell rest ih =>
    rw [Env.locate]
    split
    · exact inside.1
    · exact ih inside.2

/-- A frame in which a value is found holds that value. -/
private theorem Place.read?_of_resolve {store : Store} {name : String} {cell : Nat} {value : Value}
    (found : (Place.frame cell).resolve store name = .ok value) :
    store.read? cell = some value := by
  rw [resolve] at found
  split at found
  · rename_i known
    cases found
    exact known
  · cases found

/-- A frame in which no value is found is not filled. -/
private theorem Place.unfilled_of_resolve {store : Store} {name : String} {cell : Nat}
    {cause : Error} (failed : (Place.frame cell).resolve store name = .error cause) :
    store.read? cell = none ∧ cause = .unbound name (some Error.selfReference) := by
  rw [resolve] at failed
  split at failed
  · cases failed
  · rename_i unfilled
    cases failed
    exact ⟨unfilled, rfl⟩

section

variable {store : Store} {live : Nat → Prop} {name : String}

/-- Places at which the same is found agree. -/
private theorem Agree.of_resolve_eq {place place' : Place} (inside : place.Within live)
    (inside' : place'.Within live)
    (same : place.resolve store name = place'.resolve store name) :
    Agree .exact (.ofStore store live) name name place place' := by
  cases found : place.resolve store name with
  | ok value =>
    have found' := same.symm.trans found
    cases place with
    | missing => cases found
    | held =>
      cases found
      cases place' with
      | missing => cases found'
      | held =>
        cases found'
        exact .held (.of_within inside)
      | frame => exact .rightFilled (Place.read?_of_resolve found') (.of_within inside)
    | frame =>
      have known := Place.read?_of_resolve found
      cases place' with
      | missing => cases found'
      | held =>
        cases found'
        exact .leftFilled known (.of_within inside')
      | frame =>
        exact .linked ⟨inside, inside', known.trans (Place.read?_of_resolve found').symm⟩
  | error cause =>
    have found' := same.symm.trans found
    cases place with
    | held => cases found
    | missing =>
      cases found
      cases place' with
      | held => cases found'
      | missing => exact .missing name
      | frame => cases (Place.unfilled_of_resolve found').2
    | frame =>
      obtain ⟨unfilled, rfl⟩ := Place.unfilled_of_resolve found
      cases place' with
      | held | missing => cases found'
      | frame =>
        exact .linked
          ⟨inside, inside', unfilled.trans (Place.unfilled_of_resolve found').1.symm⟩

end

/-! ## Environments with the same outcomes -/

/-- All frames that can be reached from the node have been reserved. A cell that is still to be
reserved belongs to no environment yet: evaluation would fill it with a value of its own. -/
def Reserved (store : Store) (node : Node) : Prop :=
  ∀ cell, Reaches store node cell → cell < store.size

/-- Environments in which the free names are looked up with the same outcome lead to the same
outcome. -/
theorem sameOutcome_of_find_eq {limit : Nat} {expr : Expr} {store : Store} {first second : Env}
    (firstReserved : Reserved store (.env first)) (secondReserved : Reserved store (.env second))
    (same : ∀ name, expr.Free name → first.find store name = second.find store name) :
    SameOutcome (evaluate limit first expr store) (evaluate limit second expr store) := by
  -- The cells that either environment reaches are live on both sides.
  let live cell := Reaches store (.env first) cell ∨ Reaches store (.env second) cell
  have closed : Closed live store := by
    rintro cell value (reaches | reaches) known
    · exact (closed_reaches store _ cell value reaches known).mono fun _ => .inl
    · exact (closed_reaches store _ cell value reaches known).mono fun _ => .inr
  have reserved : ∀ cell, live cell → cell < store.size := by
    rintro cell (reaches | reaches)
    · exact firstReserved cell reaches
    · exact secondReserved cell reaches
  have firstInside : first.Within live := env_within_of_reaches first fun _ => .inl
  have secondInside : second.Within live := env_within_of_reaches second fun _ => .inr
  have sound : (World.ofStore store live).Sound .exact := .ofStore closed reserved
  have code : Corresponds Eq (fun name name' => name = name' ∧ expr.Free name) expr expr :=
    .refl (fun _ => rfl) fun _ free => ⟨rfl, free⟩
  have agree : EnvsAgree .exact (.ofStore store live)
      (fun name name' => name = name' ∧ expr.Free name) first second := by
    refine ⟨fun _ _ _ => trivial, ?_⟩
    rintro name _ ⟨rfl, free⟩
    have outcome := same name free
    rw [Env.find_eq_resolve, Env.find_eq_resolve] at outcome
    exact .of_resolve_eq (firstInside.locate name) (secondInside.locate name) outcome
  exact (inStep .exact limit sound code agree).sameOutcome

/-! ## Bindings of the host program -/

namespace Reserved

variable {store : Store}

private theorem extend {env : Env} {value : Value} (behind : Reserved store (.env env))
    (content : Reserved store (.value value)) (name : String) :
    Reserved store (.env (env.extend name value)) := by
  intro cell reaches
  cases reaches with
  | through holds further =>
    cases holds with
    | bound => exact content cell further
    | behindBound => exact behind cell further

theorem env {interpreter : Interpreter}
    (contents : ∀ binding ∈ interpreter.bindings, Reserved store (.value binding.2)) :
    Reserved store (.env interpreter.env) := by
  refine interpreter.env_of_bindings ?_ ?_ extend contents
  · intro cell reaches
    cases reaches with
    | through holds => cases holds
  · intro function cell reaches
    cases reaches with
    | through holds => cases holds

end Reserved

namespace Interpreter

variable {bindings : List (String × Value)} {store : Store} {env : Env} {name : String}

/-- A name that the host program does not bind is found behind its bindings. -/
private theorem find_of_not_mem (unbound : name ∉ bindings.map Prod.fst) :
    (bindings.foldl (fun env binding => env.extend binding.1 binding.2) env).find store name =
      env.find store name := by
  induction bindings generalizing env with
  | nil => rfl
  | cons binding rest ih =>
    rw [List.map_cons, List.mem_cons, not_or] at unbound
    rw [List.foldl_cons, ih unbound.2, Env.extend, Env.find, if_neg (Ne.symm unbound.1)]

/-- If all names are different, each binding is found. -/
private theorem find_of_mem {value : Value} (member : (name, value) ∈ bindings)
    (distinct : (bindings.map Prod.fst).Nodup) :
    (bindings.foldl (fun env binding => env.extend binding.1 binding.2) env).find store name =
      .ok value := by
  induction bindings generalizing env with
  | nil => cases member
  | cons binding rest ih =>
    rw [List.map_cons, List.nodup_cons] at distinct
    rw [List.foldl_cons]
    cases member with
    | head => rw [find_of_not_mem distinct.1, Env.extend, Env.find, if_pos rfl]
    | tail _ later => exact ih later distinct.2

/-- Bindings in another order, with further ones for names that are not asked for. -/
private theorem find_merged {added merged : List (String × Value)}
    (merges : merged.Perm (bindings ++ added)) (distinct : (merged.map Prod.fst).Nodup)
    (unused : ∀ binding ∈ added, binding.1 ≠ name) :
    (Interpreter.mk merged).env.find store name =
      (Interpreter.mk bindings).env.find store name := by
  have bindingsDistinct : (bindings.map Prod.fst).Nodup := by
    have all := (merges.map Prod.fst).nodup_iff.mp distinct
    rw [List.map_append] at all
    exact (List.nodup_append.mp all).1
  by_cases bound : name ∈ bindings.map Prod.fst
  · obtain ⟨⟨_, value⟩, member, rfl⟩ := List.mem_map.mp bound
    have mergedMember := merges.mem_iff.mpr (List.mem_append_left added member)
    exact (find_of_mem mergedMember distinct).trans (find_of_mem member bindingsDistinct).symm
  · have mergedUnbound : name ∉ merged.map Prod.fst := by
      rw [(merges.map Prod.fst).mem_iff, List.map_append, List.mem_append, not_or]
      refine ⟨bound, fun member => ?_⟩
      obtain ⟨binding, inside, same⟩ := List.mem_map.mp member
      exact unused binding inside same
    exact (find_of_not_mem mergedUnbound).trans (find_of_not_mem bound).symm

/-- Interpreters in which the free names of the program are looked up with the same outcome run it
with the same outcome. -/
theorem sameOutcome_runText {first second : Interpreter} {source : String}
    (firstReserved : Reserved store (.env first.env))
    (secondReserved : Reserved store (.env second.env))
    (same : ∀ expr, parse source = .ok expr → ∀ name, expr.Free name →
      first.env.find store name = second.env.find store name) :
    SameOutcome (first.runText source store) (second.runText source store) := by
  rw [runText_eq_settled, runText_eq_settled]
  refine .settled ?_
  cases parsed : parse source with
  | ok expr =>
    rw [evaluateText_of_ok _ parsed, evaluateText_of_ok _ parsed]
    exact sameOutcome_of_find_eq firstReserved secondReserved (same expr parsed)
  | error failure =>
    rw [evaluateText_of_error _ _ parsed, evaluateText_of_error _ _ parsed]
    exact .error failure

end Interpreter

/-- Whatever the limit, the outcome of an expression depends on the lookups of its free names only.
So a run ends with the same outcome, and prints the same, if the host program gives its bindings in
another order, and if it adds bindings for names that are not free in the program. -/
theorem outcome_depends_on_free_names :
    (∀ (limit : Nat) (expr : Expr) (store : Store) (first second : Env),
      Reserved store (.env first) → Reserved store (.env second) →
      (∀ name, expr.Free name → first.find store name = second.find store name) →
        SameOutcome (evaluate limit first expr store) (evaluate limit second expr store)) ∧
    ∀ (bindings added merged : List (String × Value)) (store : Store) (source : String),
      merged.Perm (bindings ++ added) → (merged.map Prod.fst).Nodup →
      (∀ binding ∈ merged, Reserved store (.value binding.2)) →
      (∀ expr, parse source = .ok expr → ∀ binding ∈ added, ¬ expr.Free binding.1) →
        SameOutcome ((Interpreter.mk merged).runText source store)
          ((Interpreter.mk bindings).runText source store) := by
  refine ⟨?_, ?_⟩
  · intro limit expr store first second firstReserved secondReserved same
    exact sameOutcome_of_find_eq firstReserved secondReserved same
  · intro bindings added merged store source merges distinct reserved unused
    have ownReserved : ∀ binding ∈ bindings, Reserved store (.value binding.2) :=
      fun binding member =>
        reserved binding (merges.mem_iff.mpr (List.mem_append_left added member))
    refine Interpreter.sameOutcome_runText (.env reserved) (.env ownReserved) ?_
    intro expr parsed name free
    refine Interpreter.find_merged merges distinct ?_
    rintro binding member rfl
    exact unused expr parsed binding member free

/-- One environment finds the name in a frame, the other one holds its value behind another binding,
and both have an unfilled frame for the second name. The closures over them look the same. An
interpreter may bind a built-in function anew and turn the other bindings around. -/
theorem outcome_depends_on_free_names_of_frames :
    let store : Store := ⟨#[some (.int 1), none, none]⟩
    let first : Env := .recursive "n" 0 (.recursive "u" 1 .empty)
    let second : Env := .bind "x" (.bool true) (.bind "n" (.int 1) (.recursive "u" 2 .empty))
    let expr : Expr := .lambda "y" (.binary .plus (.var "n") (.var "u"))
    let bindings : List (String × Value) := [("f", .primitive .tail), ("x", .pair (.int 2) .nil)]
    let added : List (String × Value) := [("head", .int 3)]
    (Reserved store (.env first) ∧ Reserved store (.env second) ∧
      (∀ name, expr.Free name → first.find store name = second.find store name) ∧
      SameOutcome (evaluate 4 first expr store) (evaluate 4 second expr store)) ∧
    (bindings ++ added).reverse.Perm (bindings ++ added) ∧
      ((bindings ++ added).reverse.map Prod.fst).Nodup ∧
      (∀ binding ∈ (bindings ++ added).reverse, Reserved store (.value binding.2)) ∧
      parse "f x" = .ok (.apply (.var "f") (.var "x")) ∧
      SameOutcome ((Interpreter.mk (bindings ++ added).reverse).runText "f x" store)
        ((Interpreter.mk bindings).runText "f x" store) := by
  intro store first second expr bindings added
  obtain ⟨environments, interpreters⟩ := outcome_depends_on_free_names
  have closed : Closed (· < 3) store
    | 0, _, _, known => by
      cases known
      trivial
    | 1, _, _, known | 2, _, _, known => nomatch known
    | _ + 3, _, below, _ => absurd below (by omega)
  have reserved {node : Node} (inside : node.Within (· < 3)) : Reserved store node :=
    fun _ reaches => reaches.live closed inside
  have same : ∀ name, expr.Free name → first.find store name = second.find store name := by
    rintro name ⟨-, rfl | rfl⟩
    · rfl
    · rfl
  have firstReserved : Reserved store (.env first) :=
    reserved ⟨(by decide : 0 < 3), (by decide : 1 < 3), trivial⟩
  have secondReserved : Reserved store (.env second) :=
    reserved ⟨trivial, trivial, (by decide : 2 < 3), trivial⟩
  have merges := List.reverse_perm (bindings ++ added)
  have distinct : ((bindings ++ added).reverse.map Prod.fst).Nodup := by decide
  have contents : ∀ binding ∈ (bindings ++ added).reverse, Reserved store (.value binding.2) := by
    intro binding member
    refine (List.forall_mem_cons.mpr ⟨reserved trivial, List.forall_mem_cons.mpr
      ⟨reserved ⟨trivial, trivial⟩, List.forall_mem_singleton.mpr (reserved trivial)⟩⟩ :
        ∀ binding ∈ bindings ++ added, Reserved store (.value binding.2)) binding ?_
    exact List.mem_reverse.mp member
  have parsed : parse "f x" = .ok (.apply (.var "f") (.var "x")) := rfl
  refine ⟨⟨firstReserved, secondReserved, same,
    environments 4 expr store first second firstReserved secondReserved same⟩, merges, distinct,
    contents, parsed, interpreters bindings added _ store "f x" merges distinct contents ?_⟩
  intro expr parsed' binding member
  cases parsed.symm.trans parsed'
  obtain rfl := List.mem_singleton.mp member
  decide

end MiniFun
