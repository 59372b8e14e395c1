import MiniFun.Proofs.FreeNames

/-! # Evaluations side by side

Two evaluations of programs that do the same go on in step: they look up the same bindings, reserve
cells at the same time and end in the same way, although neither their environments nor their cells
need be the same. What they have in common at any moment is a world: the two stores, and which cells
of the one stand for which cells of the other.

Values are alike in a world if they are built in the same way. Closures have captured different
environments; they are alike if their code corresponds and the environments agree on the names that
are free in it. Two environments agree on a name if they have no binding of it, or values that are
alike, or cells that stand for each other. A value in an environment may also stand for a cell that
holds such a value. Frames refer to one another in cycles; the links between cells cut these short,
and what linked cells hold is a condition on the world.

The two programs may differ in the names of their variables. How far they may is a parameter, the
latitude: which names may stand for each other, and which of them may be paired between the
environments that two closures have captured. If only equal names may stand for each other, the
programs are the same.
-/

namespace MiniFun

/-! ## Code that corresponds -/

/-- Which names on the left go with which names on the right. -/
abbrev Pairing := String → String → Prop

/-- The pairing inside of a binding of one name on each side. -/
def Pairing.under (pairing : Pairing) (left right : String) : Pairing := fun name name' =>
  (name = left ∧ name' = right) ∨ (name ≠ left ∧ name' ≠ right ∧ pairing name name')

theorem Pairing.under_mono {first second : Pairing}
    (weaker : ∀ name name', first name name' → second name name') {left right name name' : String}
    (paired : first.under left right name name') : second.under left right name name' := by
  obtain own | ⟨differs, differs', outside⟩ := paired
  · exact .inl own
  · exact .inr ⟨differs, differs', weaker name name' outside⟩

/-- The expressions are built in the same way and their variables are paired. Names on the two
sides may differ as far as they are interchangeable. -/
inductive Corresponds (interchangeable : Pairing) : Pairing → Expr → Expr → Prop
  | int {pairing : Pairing} (value : Int) :
      Corresponds interchangeable pairing (.int value) (.int value)
  | bool {pairing : Pairing} (value : Bool) :
      Corresponds interchangeable pairing (.bool value) (.bool value)
  | nil {pairing : Pairing} : Corresponds interchangeable pairing .nil .nil
  | embedded {pairing : Pairing} (value : Value) :
      Corresponds interchangeable pairing (.embedded value) (.embedded value)
  | var {pairing : Pairing} {name name' : String} (paired : pairing name name')
      (names : interchangeable name name') :
      Corresponds interchangeable pairing (.var name) (.var name')
  | binary {pairing : Pairing} (op : Operator) {left left' right right' : Expr} :
      Corresponds interchangeable pairing left left' →
      Corresponds interchangeable pairing right right' →
      Corresponds interchangeable pairing (.binary op left right) (.binary op left' right')
  | unknown {pairing : Pairing} (symbol : String) {left left' right right' : Expr} :
      Corresponds interchangeable pairing left left' →
      Corresponds interchangeable pairing right right' →
      Corresponds interchangeable pairing (.unknown symbol left right)
        (.unknown symbol left' right')
  | cond {pairing : Pairing} {test test' consequent consequent' alternative alternative' : Expr} :
      Corresponds interchangeable pairing test test' →
      Corresponds interchangeable pairing consequent consequent' →
      Corresponds interchangeable pairing alternative alternative' →
      Corresponds interchangeable pairing (.cond test consequent alternative)
        (.cond test' consequent' alternative')
  | letIn {pairing : Pairing} {name name' : String} {bound bound' body body' : Expr}
      (names : interchangeable name name') :
      Corresponds interchangeable (pairing.under name name') bound bound' →
      Corresponds interchangeable (pairing.under name name') body body' →
      Corresponds interchangeable pairing (.letIn name bound body) (.letIn name' bound' body')
  | lambda {pairing : Pairing} {param param' : String} {body body' : Expr}
      (names : interchangeable param param') :
      Corresponds interchangeable (pairing.under param param') body body' →
      Corresponds interchangeable pairing (.lambda param body) (.lambda param' body')
  | apply {pairing : Pairing} {function function' argument argument' : Expr} :
      Corresponds interchangeable pairing function function' →
      Corresponds interchangeable pairing argument argument' →
      Corresponds interchangeable pairing (.apply function argument)
        (.apply function' argument')

namespace Corresponds

/-- Every expression corresponds to itself if its free names are paired with themselves. -/
theorem refl {interchangeable pairing : Pairing} {expr : Expr}
    (same : ∀ name, interchangeable name name)
    (paired : ∀ name, expr.Free name → pairing name name) :
    Corresponds interchangeable pairing expr expr := by
  have inside : ∀ {binder : String} {inner : Pairing} {part : Expr},
      (∀ name, binder ≠ name ∧ part.Free name → inner name name) →
        ∀ name, part.Free name → inner.under binder binder name name := by
    intro binder inner part outside name free
    by_cases bound : name = binder
    · exact .inl ⟨bound, bound⟩
    · exact .inr ⟨bound, bound, outside name ⟨Ne.symm bound, free⟩⟩
  induction expr generalizing pairing with
  | int value => exact .int value
  | bool value => exact .bool value
  | nil => exact .nil
  | embedded value => exact .embedded value
  | var name => exact .var (paired name rfl) (same name)
  | binary op left right ihLeft ihRight =>
    exact .binary op (ihLeft fun name free => paired name (.inl free))
      (ihRight fun name free => paired name (.inr free))
  | unknown symbol left right ihLeft ihRight =>
    exact .unknown symbol (ihLeft fun name free => paired name (.inl free))
      (ihRight fun name free => paired name (.inr free))
  | cond test consequent alternative ihTest ihConsequent ihAlternative =>
    exact .cond (ihTest fun name free => paired name (.inl free))
      (ihConsequent fun name free => paired name (.inr (.inl free)))
      (ihAlternative fun name free => paired name (.inr (.inr free)))
  | letIn binder bound body ihBound ihBody =>
    exact .letIn (same binder)
      (ihBound (inside fun name free => paired name ⟨free.1, .inl free.2⟩))
      (ihBody (inside fun name free => paired name ⟨free.1, .inr free.2⟩))
  | lambda param body ih => exact .lambda (same param) (ih (inside paired))
  | apply function argument ihFunction ihArgument =>
    exact .apply (ihFunction fun name free => paired name (.inl free))
      (ihArgument fun name free => paired name (.inr free))

/-- If no other name may stand for a name, then corresponding code is the same code. -/
theorem eq {pairing : Pairing} {expr expr' : Expr} (code : Corresponds Eq pairing expr expr') :
    expr = expr' := by
  induction code with
  | int | bool | nil | embedded => rfl
  | var _ names => rw [names]
  | binary op _ _ ihLeft ihRight => rw [ihLeft, ihRight]
  | unknown symbol _ _ ihLeft ihRight => rw [ihLeft, ihRight]
  | cond _ _ _ ihTest ihConsequent ihAlternative => rw [ihTest, ihConsequent, ihAlternative]
  | letIn names _ _ ihBound ihBody => rw [names, ihBound, ihBody]
  | lambda names _ ih => rw [names, ih]
  | apply _ _ ihFunction ihArgument => rw [ihFunction, ihArgument]

end Corresponds

/-! ## Latitude -/

/-- How far two programs may differ in their names. -/
structure Latitude where
  /-- The names that may stand for each other. -/
  names : Pairing
  /-- The names that may be paired between two environments. -/
  scope : Env → Env → Pairing
  names_self : ∀ name, names name name
  scope_self : ∀ env name, scope env env name name
  scope_bind : ∀ {env env' : Env} {param param' name name' : String} (value value' : Value),
    (scope env env').under param param' name name' →
      scope (.bind param value env) (.bind param' value' env') name name'
  scope_recursive : ∀ {env env' : Env} {bound bound' name name' : String} (cell cell' : Nat),
    (scope env env').under bound bound' name name' →
      scope (.recursive bound cell env) (.recursive bound' cell' env') name name'

/-- Only equal names may stand for each other. -/
def Latitude.exact : Latitude where
  names := Eq
  scope _ _ _ _ := True
  names_self _ := rfl
  scope_self _ _ := trivial
  scope_bind _ _ _ := trivial
  scope_recursive _ _ _ := trivial

/-! ## Worlds -/

/-- The stores of two evaluations, and which cells stand for each other. -/
structure World where
  left : Store
  right : Store
  linked : Nat → Nat → Prop

/-- The second world is one that the two evaluations may reach from the first: cells keep their
values and their links, and new links are between new cells. -/
structure World.Grows (world later : World) : Prop where
  left : world.left.Grows later.left
  right : world.right.Grows later.right
  leftSize : world.left.size ≤ later.left.size
  rightSize : world.right.size ≤ later.right.size
  links : ∀ {cell cell'}, world.linked cell cell' → later.linked cell cell'
  fresh : ∀ {cell cell'}, later.linked cell cell' →
    world.linked cell cell' ∨ (world.left.size ≤ cell ∧ world.right.size ≤ cell')

namespace World.Grows

theorem refl (world : World) : world.Grows world where
  left := .refl _
  right := .refl _
  leftSize := Nat.le_refl _
  rightSize := Nat.le_refl _
  links linked := linked
  fresh linked := .inl linked

theorem trans {first second third : World} (front : first.Grows second)
    (back : second.Grows third) : first.Grows third where
  left := front.left.trans back.left
  right := front.right.trans back.right
  leftSize := Nat.le_trans front.leftSize back.leftSize
  rightSize := Nat.le_trans front.rightSize back.rightSize
  links linked := back.links (front.links linked)
  fresh linked := by
    obtain old | ⟨newer, newer'⟩ := back.fresh linked
    · exact front.fresh old
    · exact .inr ⟨Nat.le_trans front.leftSize newer, Nat.le_trans front.rightSize newer'⟩

end World.Grows

mutual

/-- The values are built in the same way, closures from corresponding code in environments that
agree on what the code looks up. -/
inductive Alike (latitude : Latitude) (world : World) : Value → Value → Prop
  | int (value : Int) : Alike latitude world (.int value) (.int value)
  | bool (value : Bool) : Alike latitude world (.bool value) (.bool value)
  | nil : Alike latitude world .nil .nil
  | primitive (function : Primitive) :
      Alike latitude world (.primitive function) (.primitive function)
  | failed (message : String) : Alike latitude world (.failed message) (.failed message)
  | pair {head head' tail tail' : Value} :
      Alike latitude world head head' → Alike latitude world tail tail' →
      Alike latitude world (.pair head tail) (.pair head' tail')
  | closure {env env' : Env} {param param' : String} {body body' : Expr} (pairing : Pairing)
      (names : latitude.names param param')
      (code : Corresponds latitude.names (pairing.under param param') body body')
      (covered : ∀ name name', pairing name name' → latitude.scope env env' name name')
      (agree : ∀ name name', pairing name name' →
        Agree latitude world name name' (env.locate name) (env'.locate name')) :
      Alike latitude world (.closure env param body) (.closure env' param' body')

/-- What the two names find at the two places is the same. -/
inductive Agree (latitude : Latitude) (world : World) :
    String → String → Place → Place → Prop
  | missing (name : String) : Agree latitude world name name .missing .missing
  | held {name name' : String} {value value' : Value} :
      Alike latitude world value value' →
      Agree latitude world name name' (.held value) (.held value')
  | linked {name name' : String} {cell cell' : Nat} (linked : world.linked cell cell') :
      Agree latitude world name name' (.frame cell) (.frame cell')
  | leftFilled {name name' : String} {cell : Nat} {value value' : Value}
      (known : world.left.read? cell = some value) :
      Alike latitude world value value' →
      Agree latitude world name name' (.frame cell) (.held value')
  | rightFilled {name name' : String} {cell' : Nat} {value value' : Value}
      (known : world.right.read? cell' = some value') :
      Alike latitude world value value' →
      Agree latitude world name name' (.held value) (.frame cell')

end

section

variable {latitude : Latitude} {world later : World}

mutual

theorem Alike.mono (growth : world.Grows later) {value value' : Value} :
    Alike latitude world value value' → Alike latitude later value value'
  | .int value => .int value
  | .bool value => .bool value
  | .nil => .nil
  | .primitive function => .primitive function
  | .failed message => .failed message
  | .pair head tail => .pair (head.mono growth) (tail.mono growth)
  | .closure pairing names code covered agree =>
    .closure pairing names code covered fun name name' paired =>
      (agree name name' paired).mono growth

theorem Agree.mono (growth : world.Grows later) {name name' : String} {place place' : Place} :
    Agree latitude world name name' place place' →
      Agree latitude later name name' place place'
  | .missing name => .missing name
  | .held alike => .held (alike.mono growth)
  | .linked linked => .linked (growth.links linked)
  | .leftFilled known alike => .leftFilled (growth.left _ _ known) (alike.mono growth)
  | .rightFilled known alike => .rightFilled (growth.right _ _ known) (alike.mono growth)

end

/-- Linked cells are reserved, and hold values that are alike or no values at all. -/
structure World.Sound (latitude : Latitude) (world : World) : Prop where
  reserved : ∀ {cell cell'}, world.linked cell cell' →
    cell < world.left.size ∧ cell' < world.right.size
  cells : ∀ {cell cell'}, world.linked cell cell' →
    Option.Rel (Alike latitude world) (world.left.read? cell) (world.right.read? cell')

/-- Contents of cells stay alike. -/
theorem Alike.cells_mono {content content' : Option Value}
    (alike : Option.Rel (Alike latitude world) content content')
    (growth : world.Grows later) :
    Option.Rel (Alike latitude later) content content' := by
  cases alike with
  | none => exact .none
  | some alike => exact .some (alike.mono growth)

/-! ## Failures and steps that are alike -/

/-- The failures are the same, but for the name of a variable that its own definition reads. -/
inductive FailsAlike (interchangeable : Pairing) : Failure → Failure → Prop
  | same (failure : Failure) : FailsAlike interchangeable failure failure
  | renamed {name name' : String} (names : interchangeable name name') :
      FailsAlike interchangeable (.error (.unbound name (some Error.selfReference)))
        (.error (.unbound name' (some Error.selfReference)))

theorem FailsAlike.eq {failure failure' : Failure} (alike : FailsAlike Eq failure failure') :
    failure = failure' := by
  cases alike with
  | same => rfl
  | renamed names => rw [names]

inductive StepsAlike (latitude : Latitude) (world : World) :
    Except Error Value → Except Error Value → Prop
  | ok {value value' : Value} (alike : Alike latitude world value value') :
      StepsAlike latitude world (.ok value) (.ok value')
  | error {cause cause' : Error}
      (alike : FailsAlike latitude.names (.error cause) (.error cause')) :
      StepsAlike latitude world (.error cause) (.error cause')

/-- Names that agree are looked up alike. -/
theorem Agree.resolve {name name' : String} {place place' : Place}
    (agree : Agree latitude world name name' place place')
    (sound : world.Sound latitude) (names : latitude.names name name') :
    StepsAlike latitude world (place.resolve world.left name)
      (place'.resolve world.right name') := by
  cases agree with
  | missing => exact .error (.same _)
  | held alike => exact .ok alike
  | @linked _ _ cell cell' linked =>
    have cells := sound.cells linked
    simp only [Place.resolve]
    generalize world.left.read? cell = content at cells
    generalize world.right.read? cell' = content' at cells
    cases cells with
    | none => exact .error (.renamed names)
    | some alike => exact .ok alike
  | leftFilled known alike =>
    simp only [Place.resolve, known]
    exact .ok alike
  | rightFilled known alike =>
    simp only [Place.resolve, known]
    exact .ok alike

section

variable {left left' right right' : Value}
  (first : Alike latitude world left left')
  (second : Alike latitude world right right')
include first second

private theorem Alike.onInts {operation : Int → Int → Value}
    (same : ∀ a b, Alike latitude world (operation a b) (operation a b)) :
    StepsAlike latitude world (Operator.onInts operation left right)
      (Operator.onInts operation left' right') := by
  cases first <;> cases second <;> first | exact .error (.same _) | exact .ok (same _ _)

private theorem Alike.onBools (operation : Bool → Bool → Bool) :
    StepsAlike latitude world (Operator.onBools operation left right)
      (Operator.onBools operation left' right') := by
  cases first <;> cases second <;> first | exact .error (.same _) | exact .ok (.bool _)

/-- Comparisons see nothing of closures and pairs. -/
private theorem Alike.areEqual? :
    Operator.areEqual? left right = Operator.areEqual? left' right' := by
  cases first <;> cases second <;> rfl

private theorem Alike.onEquality (op : Operator) (answer : Bool → Bool) :
    StepsAlike latitude world (Operator.onEquality op answer left right)
      (Operator.onEquality op answer left' right') := by
  rw [Operator.onEquality, Operator.onEquality, first.areEqual? second]
  cases Operator.areEqual? left' right' with
  | none => exact .error (.same _)
  | some result => exact .ok (.bool _)

theorem Alike.operator (op : Operator) :
    StepsAlike latitude world (op.apply left right) (op.apply left' right') := by
  cases op with
  | cons => exact .ok (.pair first second)
  | plus | minus | times => exact first.onInts second fun _ _ => .int _
  | less | lessEqual => exact first.onInts second fun _ _ => .bool _
  | equal | notEqual => exact first.onEquality second _ _
  | both | either => exact first.onBools second _

end

theorem Alike.builtin {argument argument' : Value}
    (alike : Alike latitude world argument argument') (primitive : Primitive) :
    StepsAlike latitude world (primitive.apply argument) (primitive.apply argument') := by
  obtain ⟨function, _⟩ := primitive
  cases function with
  | head =>
    cases alike with
    | pair head tail => exact .ok head
    | _ => exact .error (.same _)
  | tail =>
    cases alike with
    | pair head tail => exact .ok tail
    | nil => exact .ok .nil
    | _ => exact .error (.same _)
  | identity => exact .ok alike
  | failing => exact .error (.same _)

/-! ## Results that are alike -/

/-- Both results are values that are alike in a later world, or both are failures that are alike. -/
inductive Together (latitude : Latitude) (world : World) :
    EStateM.Result Failure Store Value → EStateM.Result Failure Store Value → Prop
  | ok {later : World} {value value' : Value} (growth : world.Grows later)
      (sound : later.Sound latitude) (alike : Alike latitude later value value') :
      Together latitude world (.ok value later.left) (.ok value' later.right)
  | error {failure failure' : Failure} {store store' : Store}
      (alike : FailsAlike latitude.names failure failure') :
      Together latitude world (.error failure store) (.error failure' store')

namespace Together

theorem pure {value value' : Value} (sound : world.Sound latitude)
    (alike : Alike latitude world value value') :
    Together latitude world ((Pure.pure value : Computation Value) world.left)
      ((Pure.pure value' : Computation Value) world.right) :=
  .ok (.refl world) sound alike

theorem throw (failure : Failure) :
    Together latitude world ((MonadExcept.throw failure : Computation Value) world.left)
      ((MonadExcept.throw failure : Computation Value) world.right) :=
  .error (.same failure)

theorem ofStep {step step' : Except Error Value} (sound : world.Sound latitude)
    (alike : StepsAlike latitude world step step') :
    Together latitude world (Computation.ofStep step world.left)
      (Computation.ofStep step' world.right) := by
  cases alike with
  | ok alike => exact pure sound alike
  | error alike => exact error alike

/-- What goes on in a later world goes on in this one, too. -/
theorem after {result result' : EStateM.Result Failure Store Value} (growth : world.Grows later)
    (together : Together latitude later result result') :
    Together latitude world result result' := by
  cases together with
  | ok further sound alike => exact .ok (growth.trans further) sound alike
  | error alike => exact .error alike

/-- Sequences go on together if their parts do. -/
theorem bind {first first' : Computation Value} {second second' : Value → Computation Value}
    (front : Together latitude world (first world.left) (first' world.right))
    (back : ∀ {later : World} {value value' : Value}, world.Grows later →
      later.Sound latitude → Alike latitude later value value' →
      Together latitude later (second value later.left) (second' value' later.right)) :
    Together latitude world ((first >>= second) world.left)
      ((first' >>= second') world.right) := by
  generalize ran : first world.left = result at front
  generalize ran' : first' world.right = result' at front
  cases front with
  | ok growth sound alike =>
    rw [bind_of_ok ran, bind_of_ok ran']
    exact (back growth sound alike).after growth
  | error alike =>
    rw [bind_of_error ran, bind_of_error ran']
    exact error alike

end Together

/-! ## Definitions -/

namespace World

/-- Both sides reserve a cell, and the two cells stand for each other. -/
def reserve (world : World) : World where
  left := world.left.reserve
  right := world.right.reserve
  linked cell cell' :=
    world.linked cell cell' ∨ (cell = world.left.size ∧ cell' = world.right.size)

def fill (world : World) (cell cell' : Nat) (value value' : Value) : World where
  left := world.left.fill cell value
  right := world.right.fill cell' value'
  linked := world.linked

theorem grows_reserve (world : World) : world.Grows world.reserve where
  left := .reserve _
  right := .reserve _
  leftSize := by simp [reserve]
  rightSize := by simp [reserve]
  links linked := .inl linked
  fresh linked := by
    obtain old | ⟨rfl, rfl⟩ := linked
    · exact .inl old
    · exact .inr ⟨Nat.le_refl _, Nat.le_refl _⟩

theorem Sound.reserve (sound : world.Sound latitude) :
    world.reserve.Sound latitude where
  reserved linked := by
    simp only [World.reserve, Store.size_reserve]
    obtain old | ⟨rfl, rfl⟩ := linked
    · have := sound.reserved old
      omega
    · omega
  cells linked := by
    simp only [World.reserve, Store.read?_reserve]
    obtain old | ⟨rfl, rfl⟩ := linked
    · exact Alike.cells_mono (sound.cells old) world.grows_reserve
    · rw [Store.read?_eq_none (Nat.le_refl _), Store.read?_eq_none (Nat.le_refl _)]
      exact .none

end World

/-- Since a world grew from one in which both cells had just been reserved, they are linked to
nothing but each other. -/
theorem World.Grows.alone (growth : world.reserve.Grows later) (sound : world.Sound latitude)
    {cell cell' : Nat} (linked : later.linked cell cell') :
    cell = world.left.size ↔ cell' = world.right.size := by
  obtain (old | ⟨rfl, rfl⟩) | ⟨newer, newer'⟩ := growth.fresh linked
  · have := sound.reserved old
    omega
  · simp
  · simp only [World.reserve, Store.size_reserve] at newer newer'
    omega

section

variable {value value' : Value} (growth : world.reserve.Grows later)
  (unfilled : later.left.read? world.left.size = none)
  (unfilled' : later.right.read? world.right.size = none)
include unfilled unfilled'

theorem World.grows_fill :
    later.Grows (later.fill world.left.size world.right.size value value') where
  left := .fill unfilled value
  right := .fill unfilled' value'
  leftSize := Nat.le_of_eq (Store.size_fill ..).symm
  rightSize := Nat.le_of_eq (Store.size_fill ..).symm
  links linked := linked
  fresh linked := .inl linked

include growth

/-- The reserved cells are filled with values that are alike. -/
theorem World.Sound.fill (sound : world.Sound latitude)
    (laterSound : later.Sound latitude)
    (alike : Alike latitude later value value') :
    (later.fill world.left.size world.right.size value value').Sound latitude where
  reserved linked := by
    simp only [World.fill, Store.size_fill]
    exact laterSound.reserved linked
  cells := by
    intro cell cell' linked
    have filled : later.Grows (later.fill world.left.size world.right.size value value') :=
      World.grows_fill unfilled unfilled'
    have paired := growth.alone sound linked
    obtain ⟨inside, inside'⟩ := laterSound.reserved linked
    by_cases own : cell = world.left.size
    · obtain rfl := own
      obtain rfl := paired.mp rfl
      simp only [World.fill, Store.read?_fill_self inside, Store.read?_fill_self inside']
      exact .some (alike.mono filled)
    · have differs : world.left.size ≠ cell := Ne.symm own
      have differs' : world.right.size ≠ cell' := fun same => own (paired.mpr same.symm)
      simp only [World.fill, Store.read?_fill_other differs, Store.read?_fill_other differs']
      exact Alike.cells_mono (laterSound.cells linked) filled

end

/-! ## Environments that agree -/

structure EnvsAgree (latitude : Latitude) (world : World) (pairing : Pairing) (env env' : Env) :
    Prop where
  covered : ∀ name name', pairing name name' → latitude.scope env env' name name'
  places : ∀ name name', pairing name name' →
    Agree latitude world name name' (env.locate name) (env'.locate name')

namespace EnvsAgree

variable {pairing : Pairing} {env env' : Env}

theorem mono (agree : EnvsAgree latitude world pairing env env')
    (growth : world.Grows later) : EnvsAgree latitude later pairing env env' where
  covered := agree.covered
  places name name' paired := (agree.places name name' paired).mono growth

theorem bind (agree : EnvsAgree latitude world pairing env env') {value value' : Value}
    (alike : Alike latitude world value value') (param param' : String) :
    EnvsAgree latitude world (pairing.under param param') (env.extend param value)
      (env'.extend param' value') where
  covered name name' paired :=
    latitude.scope_bind value value' (Pairing.under_mono agree.covered paired)
  places := by
    rintro name name' (⟨rfl, rfl⟩ | ⟨differs, differs', paired⟩)
    · rw [Env.extend, Env.extend, Env.locate_bind_self, Env.locate_bind_self]
      exact .held alike
    · rw [Env.extend, Env.extend, Env.locate_bind_other differs, Env.locate_bind_other differs']
      exact agree.places name name' paired

theorem recursive (agree : EnvsAgree latitude world pairing env env') {cell cell' : Nat}
    (linked : world.linked cell cell') (name name' : String) :
    EnvsAgree latitude world (pairing.under name name') (.recursive name cell env)
      (.recursive name' cell' env') where
  covered other other' paired :=
    latitude.scope_recursive cell cell' (Pairing.under_mono agree.covered paired)
  places := by
    rintro other other' (⟨rfl, rfl⟩ | ⟨differs, differs', paired⟩)
    · rw [Env.locate_recursive_self, Env.locate_recursive_self]
      exact .linked linked
    · rw [Env.locate_recursive_other differs, Env.locate_recursive_other differs']
      exact agree.places other other' paired

end EnvsAgree

/-! ## Evaluation goes on in step -/

/-- Corresponding code is evaluated alike within the limit, in environments that agree. -/
def InStep (latitude : Latitude) (limit : Nat) : Prop :=
  ∀ {world : World} {pairing : Pairing} {env env' : Env} {expr expr' : Expr},
    world.Sound latitude → Corresponds latitude.names pairing expr expr' →
      EnvsAgree latitude world pairing env env' →
        Together latitude world (evaluate limit env expr world.left)
          (evaluate limit env' expr' world.right)

namespace InStep

variable {limit : Nat} (inner : InStep latitude limit) {pairing : Pairing} {env env' : Env}
  (sound : world.Sound latitude) (agree : EnvsAgree latitude world pairing env env')
include inner sound agree

private theorem binary (op : Operator) {left left' right right' : Expr}
    (first : Corresponds latitude.names pairing left left')
    (second : Corresponds latitude.names pairing right right') :
    Together latitude world (evaluate (limit + 1) env (.binary op left right) world.left)
      (evaluate (limit + 1) env' (.binary op left' right') world.right) := by
  refine .bind (inner sound first agree) fun growth sound leftAlike => ?_
  refine .bind (inner sound second (agree.mono growth)) fun further sound rightAlike => ?_
  exact .ofStep sound ((leftAlike.mono further).operator rightAlike op)

private theorem unknown (symbol : String) {left left' right right' : Expr}
    (first : Corresponds latitude.names pairing left left')
    (second : Corresponds latitude.names pairing right right') :
    Together latitude world
      (evaluate (limit + 1) env (.unknown symbol left right) world.left)
      (evaluate (limit + 1) env' (.unknown symbol left' right') world.right) := by
  refine .bind (inner sound first agree) fun growth sound _ => ?_
  exact .bind (inner sound second (agree.mono growth)) fun _ _ _ => .throw _

private theorem cond {test test' consequent consequent' alternative alternative' : Expr}
    (first : Corresponds latitude.names pairing test test')
    (second : Corresponds latitude.names pairing consequent consequent')
    (third : Corresponds latitude.names pairing alternative alternative') :
    Together latitude world
      (evaluate (limit + 1) env (.cond test consequent alternative) world.left)
      (evaluate (limit + 1) env' (.cond test' consequent' alternative') world.right) := by
  refine .bind (inner sound first agree) fun growth sound testAlike => ?_
  cases testAlike with
  | bool answer =>
    cases answer with
    | false => exact inner sound third (agree.mono growth)
    | true => exact inner sound second (agree.mono growth)
  | _ => exact .throw _

/-- The bound expressions start with fresh cells that stand for each other. These are linked to no
other cells when they are filled. -/
private theorem letIn {name name' : String} {bound bound' body body' : Expr}
    (first : Corresponds latitude.names (pairing.under name name') bound bound')
    (second : Corresponds latitude.names (pairing.under name name') body body') :
    Together latitude world (evaluate (limit + 1) env (.letIn name bound body) world.left)
      (evaluate (limit + 1) env' (.letIn name' bound' body') world.right) := by
  have start : world.left.reserve = world.reserve.left := rfl
  have start' : world.right.reserve = world.reserve.right := rfl
  rw [evaluate_letIn, evaluate_letIn, start, start']
  have own : EnvsAgree latitude world.reserve (pairing.under name name')
      (.recursive name world.left.size env) (.recursive name' world.right.size env') :=
    (agree.mono world.grows_reserve).recursive (.inr ⟨rfl, rfl⟩) name name'
  have front := inner sound.reserve first own
  generalize ran : evaluate limit _ bound world.reserve.left = result at front
  generalize ran' : evaluate limit _ bound' world.reserve.right = result' at front
  cases front with
  | error alike =>
    rw [bind_of_error ran, bind_of_error ran']
    exact .error alike
  | @ok later value value' growth laterSound alike =>
    have unfilled : later.left.read? world.left.size = none := by
      rw [read?_of_evaluate ran (by simp [World.reserve])]
      simp [World.reserve, Store.read?_eq_none]
    have unfilled' : later.right.read? world.right.size = none := by
      rw [read?_of_evaluate ran' (by simp [World.reserve])]
      simp [World.reserve, Store.read?_eq_none]
    have filled : later.Grows (later.fill world.left.size world.right.size value value') :=
      World.grows_fill unfilled unfilled'
    have grown := world.grows_reserve.trans (growth.trans filled)
    have back := inner (sound.fill growth unfilled unfilled' laterSound alike) second
      (own.mono (growth.trans filled))
    rw [bind_of_ok ran, bind_of_ok ran']
    exact back.after grown

private theorem apply {function function' argument argument' : Expr}
    (first : Corresponds latitude.names pairing function function')
    (second : Corresponds latitude.names pairing argument argument') :
    Together latitude world
      (evaluate (limit + 1) env (.apply function argument) world.left)
      (evaluate (limit + 1) env' (.apply function' argument') world.right) := by
  refine .bind (inner sound first agree) fun growth sound functionAlike => ?_
  have argumentTogether := inner sound second (agree.mono growth)
  cases functionAlike with
  | @closure captured captured' param param' body body' inside names code covered places =>
    refine .bind argumentTogether fun further sound argumentAlike => ?_
    have captures : EnvsAgree latitude _ inside captured captured' := ⟨covered, places⟩
    exact inner sound code ((captures.mono further).bind argumentAlike param param')
  | primitive builtin =>
    exact .bind argumentTogether fun _ sound argumentAlike =>
      .ofStep sound (argumentAlike.builtin builtin)
  | _ => exact .throw _

end InStep

/-- Evaluation goes on in step for as long as it goes on. -/
theorem inStep (latitude : Latitude) (limit : Nat) : InStep latitude limit := by
  induction limit with
  | zero =>
    intro world pairing env env' expr expr' sound code agree
    exact .throw .tooDeep
  | succ limit ih =>
    intro world pairing env env' expr expr' sound code agree
    cases code with
    | int value => exact .pure sound (.int value)
    | bool value => exact .pure sound (.bool value)
    | nil => exact .pure sound .nil
    | embedded value =>
      rw [evaluate, evaluate, Value.refuse]
      cases value.form? <;> exact .throw _
    | @var _ name name' paired names =>
      have looked := (agree.places name name' paired).resolve sound names
      rw [← Env.find_eq_resolve, ← Env.find_eq_resolve] at looked
      exact .ofStep sound looked
    | lambda names body =>
      exact .pure sound (.closure pairing names body agree.covered agree.places)
    | binary op first second => exact ih.binary sound agree op first second
    | unknown symbol first second => exact ih.unknown sound agree symbol first second
    | cond first second third => exact ih.cond sound agree first second third
    | letIn names first second => exact ih.letIn sound agree first second
    | apply first second => exact ih.apply sound agree first second

end

end MiniFun
