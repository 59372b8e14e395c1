import MiniFun.Proofs.LexicalScoping

/-! # A definition that does not read its own name is an application

A definition evaluates its bound expression behind a fresh frame, and its body behind the same frame
once it is filled. An application evaluates the bound expression in the environment around it and
holds the value in a binding. If the bound expression does not read the name, then the two go on in
step. The definition has one cell more, which stands for no cell of the other side: closures made by
the bound expression capture it, but their code does not look it up. When the body looks it up, it
holds a value like the one in the binding.
-/

namespace MiniFun

/-! ## A cell on one side only -/

namespace World

variable {latitude : Latitude} {world later : World} {cell : Nat}

/-- The left side reserves a cell that stands for no cell of the right side. -/
def reserveLeft (world : World) : World :=
  { world with left := world.left.reserve }

def fillLeft (world : World) (cell : Nat) (value : Value) : World :=
  { world with left := world.left.fill cell value }

private theorem grows_reserveLeft (world : World) : world.Grows world.reserveLeft where
  left := .reserve _
  right := .refl _
  leftSize := by simp [reserveLeft]
  rightSize := Nat.le_refl _
  links linked := linked
  fresh linked := .inl linked

private theorem Sound.reserveLeft (sound : world.Sound latitude) :
    world.reserveLeft.Sound latitude where
  reserved linked := by
    have := sound.reserved linked
    simp only [World.reserveLeft, Store.size_reserve]
    omega
  cells linked := by
    simp only [World.reserveLeft, Store.read?_reserve]
    exact Alike.cells_mono (sound.cells linked) world.grows_reserveLeft

/-- New links are between cells that both sides reserve, so that the cell of the left side alone
stays without one. -/
private theorem Grows.unlinked (growth : world.reserveLeft.Grows later)
    (sound : world.Sound latitude) (cell' : Nat) : ¬ later.linked world.left.size cell' := by
  intro linked
  obtain old | ⟨newer, -⟩ := growth.fresh linked
  · have := sound.reserved old
    omega
  · simp only [World.reserveLeft, Store.size_reserve] at newer
    omega

private theorem grows_fillLeft (unfilled : world.left.read? cell = none) (value : Value) :
    world.Grows (world.fillLeft cell value) where
  left := .fill unfilled value
  right := .refl _
  leftSize := Nat.le_of_eq (Store.size_fill ..).symm
  rightSize := Nat.le_refl _
  links linked := linked
  fresh linked := .inl linked

private theorem Sound.fillLeft (sound : world.Sound latitude)
    (unfilled : world.left.read? cell = none) (unlinked : ∀ cell', ¬ world.linked cell cell')
    (value : Value) : (world.fillLeft cell value).Sound latitude where
  reserved linked := by
    simp only [World.fillLeft, Store.size_fill]
    exact sound.reserved linked
  cells {other cell'} linked := by
    have differs : cell ≠ other := by
      rintro rfl
      exact unlinked cell' linked
    simp only [World.fillLeft, Store.read?_fill_other differs]
    exact Alike.cells_mono (sound.cells linked) (grows_fillLeft unfilled value)

end World

/-! ## Environments with a frame on one side only -/

namespace EnvsAgree

variable {world : World} {env env' : Env} {name : String} {cell : Nat}

/-- A frame in front does not matter to the other names. -/
private theorem recursiveLeft (agree : EnvsAgree .exact world Eq env env') (name : String)
    (cell : Nat) :
    EnvsAgree .exact world (fun other other' => other = other' ∧ other ≠ name)
      (.recursive name cell env) env' where
  covered _ _ _ := trivial
  places := by
    rintro other _ ⟨rfl, differs⟩
    rw [Env.locate_recursive_other differs]
    exact agree.places other other rfl

/-- A filled frame is as good as a binding of a value like the one in it. -/
private theorem frame_bind (agree : EnvsAgree .exact world Eq env env') {value value' : Value}
    (filled : world.left.read? cell = some value) (alike : Alike .exact world value value')
    (name : String) :
    EnvsAgree .exact world Eq (.recursive name cell env) (env'.extend name value') where
  covered _ _ _ := trivial
  places := by
    rintro other _ rfl
    by_cases own : other = name
    · subst own
      rw [Env.extend, Env.locate_recursive_self, Env.locate_bind_self]
      exact .leftFilled filled alike
    · rw [Env.extend, Env.locate_recursive_other own, Env.locate_bind_other own]
      exact agree.places other other rfl

end EnvsAgree

/-! ## Definitions and applications in step -/

/-- Applying a function that is written out evaluates its argument and then its body. -/
private theorem evaluate_apply_lambda (limit : Nat) (env : Env) (param : String)
    (body argument : Expr) :
    evaluate (limit + 2) env (.apply (.lambda param body) argument) = (do
      let value ← evaluate (limit + 1) env argument
      evaluate (limit + 1) (env.extend param value) body) := rfl

theorem together_letIn_apply {world : World} {env env' : Env} {name : String} {bound body : Expr}
    (sound : world.Sound .exact) (agree : EnvsAgree .exact world Eq env env')
    (unused : ¬ bound.Free name) (limit : Nat) :
    Together .exact world (evaluate limit env (.letIn name bound body) world.left)
      (evaluate limit env' (.apply (.lambda name body) bound) world.right) := by
  match limit with
  | 0 | 1 => exact .error (.same .tooDeep)
  | limit + 2 =>
    rw [evaluate_letIn, evaluate_apply_lambda]
    have boundCode :
        Corresponds Eq (fun other other' => other = other' ∧ other ≠ name) bound bound :=
      .refl (fun _ => rfl) fun other free => ⟨rfl, fun own => unused (own ▸ free)⟩
    have bodyCode : Corresponds Eq Eq body body := .refl (fun _ => rfl) fun _ _ => rfl
    have front := inStep .exact (limit + 1) sound.reserveLeft boundCode
      ((agree.mono world.grows_reserveLeft).recursiveLeft name world.left.size)
    change Together _ _ (evaluate (limit + 1) _ bound world.left.reserve)
      (evaluate (limit + 1) env' bound world.right) at front
    generalize ran : evaluate (limit + 1) _ bound world.left.reserve = result at front
    generalize ran' : evaluate (limit + 1) env' bound world.right = result' at front
    cases front with
    | error alike =>
      rw [bind_of_error ran, bind_of_error ran']
      exact .error alike
    | @ok later value value' growth laterSound alike =>
      have unfilled : later.left.read? world.left.size = none := by
        rw [read?_of_evaluate ran (by simp)]
        simp [Store.read?_eq_none]
      have inside : world.left.size < later.left.size := by
        have := growth.leftSize
        simp only [World.reserveLeft, Store.size_reserve] at this
        omega
      -- The frame is filled where the application binds the value.
      have filled : later.Grows (later.fillLeft world.left.size value) :=
        World.grows_fillLeft unfilled value
      have grown := world.grows_reserveLeft.trans (growth.trans filled)
      have back := inStep .exact (limit + 1)
        (laterSound.fillLeft unfilled (growth.unlinked sound) value) bodyCode
        ((agree.mono grown).frame_bind (Store.read?_fill_self inside value) (alike.mono filled)
          name)
      rw [bind_of_ok ran, bind_of_ok ran']
      exact back.after grown

/-- A definition whose bound expression does not read the defined name has the same outcome as the
application of the function of that name to the bound expression, whatever the limit. -/
theorem definition_is_application (env : Env) (store : Store) (name : String) (bound body : Expr)
    (reserved : Reserved store (.env env)) (unused : ¬ bound.Free name) (limit : Nat) :
    SameOutcome (evaluate limit env (.letIn name bound body) store)
      (evaluate limit env (.apply (.lambda name body) bound) store) := by
  let live := Reaches store (.env env)
  have inside : env.Within live := env_within_of_reaches env fun _ reaches => reaches
  have sound : (World.ofStore store live).Sound .exact :=
    .ofStore (closed_reaches store (.env env)) reserved
  have agree : EnvsAgree .exact (.ofStore store live) Eq env env := by
    refine ⟨fun _ _ _ => trivial, ?_⟩
    rintro other _ rfl
    exact Agree.of_within inside other
  exact (together_letIn_apply sound agree unused limit).sameOutcome

/-- The name is one that the environment binds to a frame already. The defined function captures
the new frame on one side and not on the other, and its call reads the environment behind it. -/
theorem definition_is_application_under_shadowing :
    let env : Env := .bind "y" (.int 3) (.recursive "f" 0 .empty)
    let store : Store := ⟨#[some (.closure env "x" (.var "f"))]⟩
    let bound : Expr := .lambda "z" (.binary .plus (.var "z") (.var "y"))
    let body : Expr := .binary .cons (.var "f") (.apply (.var "f") (.int 4))
    let code : Expr := .binary .plus (.var "z") (.var "y")
    Reserved store (.env env) ∧ ¬ bound.Free "f" ∧ ∃ target,
      evaluate 5 env (.letIn "f" bound body) store =
        .ok (.pair (.closure (.recursive "f" 1 env) "z" code) (.int 7)) target ∧
      evaluate 5 env (.apply (.lambda "f" body) bound) store =
        .ok (.pair (.closure env "z" code) (.int 7)) store ∧
      SameOutcome (evaluate 5 env (.letIn "f" bound body) store)
        (evaluate 5 env (.apply (.lambda "f" body) bound) store) := by
  intro env store bound body code
  have closed : Closed (· = 0) store := by
    rintro cell value rfl read
    cases read
    exact ⟨trivial, rfl, trivial⟩
  have reserved : Reserved store (.env env) := by
    intro cell reaches
    obtain rfl : cell = 0 := reaches.live closed ⟨trivial, rfl, trivial⟩
    decide
  have unused : ¬ bound.Free "f" := by decide
  exact ⟨reserved, unused, _, rfl, rfl,
    definition_is_application env store "f" bound body reserved unused 5⟩

end MiniFun
