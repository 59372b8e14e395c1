import MiniFun.Proofs.LexicalScoping

/-! # The names of bound variables do not matter

Expressions are alpha-equivalent if they are built in the same way and the variables at each place
refer to the same binding: to bindings at the same place inside of the two expressions, or to the
same name outside of them. Evaluated in one environment they have the same outcome, as far as
bound names do not show. The values are built in the same way, from alpha-equivalent code; a message
about a definition that reads its own name gives the name that it has on its side.

The free names of a closure's code refer to the environment that the closure has captured. Its
bindings pair these names: the two environments have grown binding by binding in front of the same
one, so that bindings at the same distance from the front belong together.
-/

namespace MiniFun

/-! ## Alpha-equivalence -/

namespace Expr

/-- The expressions differ in the names of what they bind only, where their free names are paired
as given. -/
def AlphaEquivalentIn (pairing : Pairing) : Expr → Expr → Prop :=
  Corresponds (fun _ _ => True) pairing

/-- The expressions differ in the names of what they bind only. -/
def AlphaEquivalent : Expr → Expr → Prop :=
  AlphaEquivalentIn Eq

/-- The names that the two expressions bind at the same places. -/
def boundPairs : Expr → Expr → List (String × String)
  | letIn name bound body, letIn name' bound' body' =>
    (name, name') :: (bound.boundPairs bound' ++ body.boundPairs body')
  | lambda param body, lambda param' body' => (param, param') :: body.boundPairs body'
  | binary _ left right, binary _ left' right' | unknown _ left right, unknown _ left' right' =>
    left.boundPairs left' ++ right.boundPairs right'
  | cond test consequent alternative, cond test' consequent' alternative' =>
    test.boundPairs test' ++ consequent.boundPairs consequent' ++
      alternative.boundPairs alternative'
  | apply function argument, apply function' argument' =>
    function.boundPairs function' ++ argument.boundPairs argument'
  | _, _ => []

/-- The second name is the first one, or what it is renamed to at some place. -/
def Renames (expr expr' : Expr) : Pairing := fun name name' =>
  name = name' ∨ (name, name') ∈ expr.boundPairs expr'

end Expr

namespace Corresponds

theorem mono {first second pairing wider : Pairing} {expr expr' : Expr}
    (code : Corresponds first pairing expr expr')
    (names : ∀ name name', first name name' → second name name')
    (pairs : ∀ name name', pairing name name' → wider name name') :
    Corresponds second wider expr expr' := by
  induction code generalizing wider with
  | int value => exact .int value
  | bool value => exact .bool value
  | nil => exact .nil
  | embedded value => exact .embedded value
  | var paired own => exact .var (pairs _ _ paired) (names _ _ own)
  | binary op _ _ ihLeft ihRight => exact .binary op (ihLeft pairs) (ihRight pairs)
  | unknown symbol _ _ ihLeft ihRight => exact .unknown symbol (ihLeft pairs) (ihRight pairs)
  | cond _ _ _ ihTest ihConsequent ihAlternative =>
    exact .cond (ihTest pairs) (ihConsequent pairs) (ihAlternative pairs)
  | letIn own _ _ ihBound ihBody =>
    exact .letIn (names _ _ own) (ihBound fun _ _ => Pairing.under_mono pairs)
      (ihBody fun _ _ => Pairing.under_mono pairs)
  | lambda own _ ih => exact .lambda (names _ _ own) (ih fun _ _ => Pairing.under_mono pairs)
  | apply _ _ ihFunction ihArgument => exact .apply (ihFunction pairs) (ihArgument pairs)

/-- If any names may stand for each other, then only those have to that are paired outside of the
expressions or bound at the same place inside. -/
private theorem restrict {names pairing : Pairing} {expr expr' : Expr}
    (code : Corresponds (fun _ _ => True) pairing expr expr')
    (outside : ∀ name name', pairing name name' → names name name')
    (inside : ∀ pair ∈ expr.boundPairs expr', names pair.1 pair.2) :
    Corresponds names pairing expr expr' := by
  have under : ∀ {around : Pairing} {left right : String},
      (∀ name name', around name name' → names name name') → names left right →
        ∀ name name', around.under left right name name' → names name name' := by
    rintro around left right outside own name name' (⟨rfl, rfl⟩ | ⟨-, -, paired⟩)
    · exact own
    · exact outside name name' paired
  induction code with
  | int value => exact .int value
  | bool value => exact .bool value
  | nil => exact .nil
  | embedded value => exact .embedded value
  | var paired _ => exact .var paired (outside _ _ paired)
  | binary op _ _ ihLeft ihRight =>
    rw [Expr.boundPairs, List.forall_mem_append] at inside
    exact .binary op (ihLeft outside inside.1) (ihRight outside inside.2)
  | unknown symbol _ _ ihLeft ihRight =>
    rw [Expr.boundPairs, List.forall_mem_append] at inside
    exact .unknown symbol (ihLeft outside inside.1) (ihRight outside inside.2)
  | cond _ _ _ ihTest ihConsequent ihAlternative =>
    rw [Expr.boundPairs, List.forall_mem_append, List.forall_mem_append] at inside
    exact .cond (ihTest outside inside.1.1) (ihConsequent outside inside.1.2)
      (ihAlternative outside inside.2)
  | letIn _ _ _ ihBound ihBody =>
    rw [Expr.boundPairs, List.forall_mem_cons, List.forall_mem_append] at inside
    obtain ⟨own, boundInside, bodyInside⟩ := inside
    exact .letIn own (ihBound (under outside own) boundInside)
      (ihBody (under outside own) bodyInside)
  | lambda _ _ ih =>
    rw [Expr.boundPairs, List.forall_mem_cons] at inside
    exact .lambda inside.1 (ih (under outside inside.1) inside.2)
  | apply _ _ ihFunction ihArgument =>
    rw [Expr.boundPairs, List.forall_mem_append] at inside
    exact .apply (ihFunction outside inside.1) (ihArgument outside inside.2)

end Corresponds

/-! ## Values of the same shape -/

/-- The pairing of two lists of bound names, the foremost first. Each name is paired with the one
that refers to the same place of the other list. Names in neither list stand for themselves, and
nothing is paired if one list is longer. -/
def Pairing.along : List String → List String → Pairing
  | [], [] => Eq
  | name :: rest, name' :: rest' => (along rest rest').under name name'
  | _, _ => fun _ _ => False

private theorem Pairing.along_self (bound : List String) (name : String) :
    along bound bound name name := by
  induction bound with
  | nil => rfl
  | cons first rest ih =>
    by_cases own : name = first
    · exact .inl ⟨own, own⟩
    · exact .inr ⟨own, own, ih⟩

/-- The values are built in the same way. The code of closures is alpha-equivalent, with the names
paired that refer to the same binding of the captured environments. -/
inductive Value.SameShape : Value → Value → Prop
  | int (value : Int) : SameShape (.int value) (.int value)
  | bool (value : Bool) : SameShape (.bool value) (.bool value)
  | nil : SameShape .nil .nil
  | primitive (function : Primitive) : SameShape (.primitive function) (.primitive function)
  | failed (message : String) : SameShape (.failed message) (.failed message)
  | pair {head head' tail tail' : Value} : SameShape head head' → SameShape tail tail' →
      SameShape (.pair head tail) (.pair head' tail')
  | closure {env env' : Env} {param param' : String} {body body' : Expr}
      (code : Expr.AlphaEquivalentIn (.along env.names env'.names) (.lambda param body)
        (.lambda param' body')) :
      SameShape (.closure env param body) (.closure env' param' body')

/-- The results are the same but for bound names: values of the same shape, or the same failure with
names in it that may stand for each other. -/
inductive SameUpToNames (renames : Pairing) :
    EStateM.Result Failure Store Value → EStateM.Result Failure Store Value → Prop
  | ok {value value' : Value} {target target' : Store} (shape : value.SameShape value') :
      SameUpToNames renames (.ok value target) (.ok value' target')
  | error {failure failure' : Failure} {target target' : Store}
      (alike : FailsAlike renames failure failure') :
      SameUpToNames renames (.error failure target) (.error failure' target')

/-! ## Alpha-equivalent programs in step -/

/-- The two expressions may use the names that they bind at the same places, and pair names by the
bindings of the environments. -/
def Latitude.renaming (expr expr' : Expr) : Latitude where
  names := expr.Renames expr'
  scope env env' := .along env.names env'.names
  names_self _ := .inl rfl
  scope_self env name := Pairing.along_self env.names name
  scope_bind _ _ paired := paired
  scope_recursive _ _ paired := paired

theorem Alike.sameShape {expr expr' : Expr} {world : World} {value value' : Value} :
    Alike (.renaming expr expr') world value value' → value.SameShape value'
  | .int value => .int value
  | .bool value => .bool value
  | .nil => .nil
  | .primitive function => .primitive function
  | .failed message => .failed message
  | .pair head tail => .pair head.sameShape tail.sameShape
  | .closure _ _ code covered _ =>
    .closure (.lambda trivial
      (code.mono (fun _ _ _ => trivial) fun _ _ => Pairing.under_mono covered))

theorem Together.sameUpToNames {expr expr' : Expr} {world : World}
    {result result' : EStateM.Result Failure Store Value}
    (together : Together (.renaming expr expr') world result result') :
    SameUpToNames (expr.Renames expr') result result' := by
  cases together with
  | ok _ _ alike => exact .ok alike.sameShape
  | error alike => exact .error alike

/-- Whatever the limit, alpha-equivalent expressions have the same outcome in one environment, but
for the names that they bind. -/
theorem alphaEquivalent_programs_agree (env : Env) (store : Store) (expr expr' : Expr)
    (reserved : Reserved store (.env env)) (equivalent : expr.AlphaEquivalent expr')
    (limit : Nat) :
    SameUpToNames (expr.Renames expr') (evaluate limit env expr store)
      (evaluate limit env expr' store) := by
  let live := Reaches store (.env env)
  have inside : env.Within live := env_within_of_reaches env fun _ reaches => reaches
  have sound : (World.ofStore store live).Sound (.renaming expr expr') :=
    .ofStore (closed_reaches store (.env env)) reserved
  have code : Corresponds (expr.Renames expr') Eq expr expr' :=
    Corresponds.restrict equivalent (fun _ _ => .inl) fun _ => .inr
  have agree : EnvsAgree (.renaming expr expr') (.ofStore store live) Eq env env := by
    constructor
    · rintro name _ rfl
      exact Pairing.along_self env.names name
    · rintro name _ rfl
      exact Agree.of_within inside name
  exact (inStep (.renaming expr expr') limit sound code agree).sameUpToNames

/-- A recursive definition and its function swap names with each other and with a binding of the
environment. A definition that reads its own name is renamed to one that the environment binds: it
goes on to fail, under the new name. -/
theorem alphaEquivalent_programs_agree_under_shadowing :
    let env : Env := .bind "y" (.int 3) (.recursive "f" 0 .empty)
    let store : Store := ⟨#[some (.closure env "x" (.var "f"))]⟩
    let expr : Expr := .letIn "g" (.lambda "x" (.apply (.var "g") (.var "x")))
      (.lambda "z" (.binary .cons (.var "g") (.var "f")))
    let expr' : Expr := .letIn "x" (.lambda "y" (.apply (.var "x") (.var "y")))
      (.lambda "g" (.binary .cons (.var "x") (.var "f")))
    let faulty : Expr := .letIn "h" (.binary .plus (.var "h") (.var "y")) (.var "h")
    let faulty' : Expr := .letIn "f" (.binary .plus (.var "f") (.var "y")) (.var "f")
    Reserved store (.env env) ∧ expr.AlphaEquivalent expr' ∧ faulty.AlphaEquivalent faulty' ∧
      (∃ value target value' target', evaluate 3 env expr store = .ok value target ∧
        evaluate 3 env expr' store = .ok value' target' ∧
        SameUpToNames (expr.Renames expr') (.ok value target) (.ok value' target')) ∧
      ∃ target target',
        evaluate 3 env faulty store =
          .error (.error (.unbound "h" (some Error.selfReference))) target ∧
        evaluate 3 env faulty' store =
          .error (.error (.unbound "f" (some Error.selfReference))) target' ∧
        SameUpToNames (faulty.Renames faulty') (evaluate 3 env faulty store)
          (evaluate 3 env faulty' store) := by
  intro env store expr expr' faulty faulty'
  have closed : Closed (· = 0) store := by
    rintro cell value rfl read
    cases read
    exact ⟨trivial, rfl, trivial⟩
  have reserved : Reserved store (.env env) := by
    intro cell reaches
    obtain rfl : cell = 0 := reaches.live closed ⟨trivial, rfl, trivial⟩
    decide
  have equivalent : expr.AlphaEquivalent expr' := by
    refine .letIn trivial (.lambda trivial (.apply (.var ?_ trivial) (.var ?_ trivial)))
      (.lambda trivial (.binary .cons (.var ?_ trivial) (.var ?_ trivial)))
    all_goals simp [Pairing.under]
  have faultyEquivalent : faulty.AlphaEquivalent faulty' := by
    refine .letIn trivial (.binary .plus (.var ?_ trivial) (.var ?_ trivial)) (.var ?_ trivial)
    all_goals simp [Pairing.under]
  have agree := alphaEquivalent_programs_agree env store expr expr' reserved equivalent 3
  have faultyAgree :=
    alphaEquivalent_programs_agree env store faulty faulty' reserved faultyEquivalent 3
  exact ⟨reserved, equivalent, faultyEquivalent, ⟨_, _, _, _, rfl, rfl, agree⟩,
    _, _, rfl, rfl, faultyAgree⟩

end MiniFun
