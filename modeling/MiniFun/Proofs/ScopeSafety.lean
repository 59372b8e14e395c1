import MiniFun.Proofs.Territory

/-! # Programs whose names are bound find them

An environment is well scoped if every frame that it reaches is filled and every closure that it
reaches finds its free names bound where it was made. In such an environment, a program whose free
names are bound never looks for a name in vain. There is one exception, a definition that reads its
own name while its value is computed. A definition of a function does not, since its bound
expression is not called before it is there.
-/

namespace MiniFun

namespace Expr

/-- The first expression is the second one or stands inside of it. -/
def Occurs (part whole : Expr) : Prop :=
  Relation.ReflTransGen (fun outer inner => inner ∈ outer.parts) whole part

theorem Occurs.part {part inner whole : Expr} (occurs : inner.Occurs whole)
    (member : part ∈ inner.parts) : part.Occurs whole :=
  occurs.tail member

end Expr

/-- All frames that the node reaches are filled, and all closures find their names bound. -/
structure WellScoped (store : Store) (node : Node) : Prop where
  filled : ∀ cell, Reaches store node cell → store.read? cell ≠ none
  named : ∀ captured param body, Leads store node (.value (.closure captured param body)) →
    ∀ name, body.Free name → name ≠ param → captured.contains name = true

/-- The code that evaluation can come across: the expression itself, and the closures within
reach. -/
def AtHand (store : Store) (env : Env) (expr part : Expr) : Prop :=
  part.Occurs expr ∨ ∃ captured param body,
    Leads store (.env env) (.value (.closure captured param body)) ∧ part.Occurs body

/-! ## Lookups of bound names -/

namespace Env

variable {store : Store} {name : String}

/-- A name is bound to a value wherever all frames are filled. -/
private theorem find_of_filled {env : Env} (bound : env.contains name = true)
    (filled : ∀ cell, Reaches store (.env env) cell → store.read? cell ≠ none) :
    ∃ value, env.find store name = .ok value := by
  induction env with
  | empty => cases bound
  | bind other value rest ih =>
    rw [find]
    split
    · exact ⟨value, rfl⟩
    · rename_i differs
      have behind : rest.contains name = true := by simpa [contains, differs] using bound
      exact ih behind fun cell reaches => filled cell (.through (.behindBound ..) reaches)
  | recursive other cell rest ih =>
    rw [find]
    split
    · cases known : store.read? cell with
      | none => exact (filled cell (.frame ..) known).elim
      | some value => exact ⟨value, rfl⟩
    · rename_i differs
      have behind : rest.contains name = true := by simpa [contains, differs] using bound
      exact ih behind fun cell reaches => filled cell (.through (.behindRecursive ..) reaches)

private theorem find_of_not_contains {env : Env} (unbound : env.contains name = false) :
    env.find store name = .error (.unbound name none) := by
  induction env with
  | empty => rfl
  | bind other _ rest ih | recursive other _ rest ih =>
    rw [contains, Bool.or_eq_false_iff] at unbound
    rw [find, if_neg (beq_eq_false_iff_ne.mp unbound.1)]
    exact ih unbound.2

end Env

/-! ## Recursive functions are well scoped -/

theorem wellScoped_empty (store : Store) : WellScoped store (.env .empty) := by
  refine ⟨fun cell reaches => ?_, fun captured param body leads => ?_⟩
  · cases reaches with
    | through holds => cases holds
  · obtain same | ⟨_, holds, -⟩ := leads.cases_head
    · cases same
    · cases holds

/-- In front of a well-scoped environment, a function in its own frame is well scoped if its free
names are bound there. -/
theorem WellScoped.recursive {store : Store} {rest : Env} (behind : WellScoped store (.env rest))
    {name param : String} {cell : Nat} {body : Expr}
    (known : store.read? cell = some (.closure (.recursive name cell rest) param body))
    (bound : ∀ other, body.Free other → other ≠ param →
      (Env.recursive name cell rest).contains other = true) :
    WellScoped store (.env (.recursive name cell rest)) := by
  have closed : HoldsKnown store fun node => node = .env (.recursive name cell rest) ∨
      node = .value (.closure (.recursive name cell rest) param body) ∨
        Leads store (.env rest) node := by
    refine ⟨?_⟩
    rintro _ _ (rfl | rfl | leads) holds
    · cases holds with
      | inFrame read =>
        cases known.symm.trans read
        exact .inr (.inl rfl)
      | behindRecursive => exact .inr (.inr .refl)
    · cases holds with
      | captured => exact .inl rfl
    · exact .inr (.inr (leads.tail holds))
  refine ⟨fun other reaches => ?_, fun captured _ _ leads => ?_⟩
  · obtain ⟨_, _, leads⟩ := reaches.leads
    obtain same | same | leads := closed.leads (.inl rfl) leads
    · cases same
      rw [known]
      nofun
    · cases same
    · exact behind.filled other (leads.reaches (.frame ..))
  · obtain same | same | leads := closed.leads (.inl rfl) leads
    · cases same
    · cases same
      exact bound
    · exact behind.named _ _ _ leads

/-! ## Names that are looked up too early -/

/-- Code at hand may be evaluated. The only name that it finds unbound is that of a definition at
hand which is no function and reads its own name. -/
def scopePolicy (store : Store) (env : Env) (expr : Expr) : Policy where
  allows := AtHand store env expr
  makes _ _ := True
  raises cause := ∀ name reason, cause = .unbound name reason →
    reason = some Error.selfReference ∧ ∃ bound body,
      AtHand store env expr (.letIn name bound body) ∧ bound.isLambda = false ∧ bound.Free name
  allows_part := by
    rintro whole part (inside | ⟨captured, param, body, leads, inside⟩) member
    · exact .inl (inside.part member)
    · exact .inr ⟨captured, param, body, leads, inside.part member⟩
  makes_lambda _ := trivial
  raises_mistyped := nofun
  raises_emptyList := nofun
  raises_unknown := nofun
  raises_embedded := nofun
  raises_unfilled := by
    rintro name bound body allowed noFunction free _ _ ⟨⟩
    exact ⟨rfl, bound, body, allowed, noFunction, free⟩

section

variable {env : Env} {expr : Expr} {store : Store} (wellScoped : WellScoped store (.env env))
include wellScoped

/-- What a well-scoped environment reaches is a territory of the policy. -/
theorem WellScoped.territory :
    Territory (scopePolicy store env expr) store (Leads store (.env env)) where
  closed := ⟨fun inside holds => inside.tail holds⟩
  made _ := trivial
  fits := by
    intro captured param body leads argument
    refine ⟨.inr ⟨captured, param, body, leads, .refl⟩, fun {name cause} free failed => ?_⟩
    rw [Env.extend, Env.find] at failed
    split at failed
    · cases failed
    · rename_i differs
      have bound := wellScoped.named captured param body leads name free (Ne.symm differs)
      obtain ⟨value, found⟩ := Env.find_of_filled bound fun cell reaches =>
        wellScoped.filled cell (leads.reaches (.through (.captured ..) reaches))
      cases failed.symm.trans found

/-- A program whose names are bound in a well-scoped environment fits it. -/
theorem WellScoped.fits (bound : ∀ name, expr.Free name → env.contains name = true) :
    (scopePolicy store env expr).Fits store env expr := by
  refine ⟨.inl .refl, fun {name cause} free failed => ?_⟩
  obtain ⟨value, found⟩ := Env.find_of_filled (bound name free) wellScoped.filled
  cases failed.symm.trans found

/-- The closures of a territory that grew out of a well-scoped environment find their names. -/
theorem WellScoped.of_spreads {limit : Nat} {target : Store} {value : Value} {more : Node → Prop}
    (success : evaluate limit env expr store = .ok value target)
    (spreads : Spreads (scopePolicy store env expr) (Leads store (.env env)) target more)
    (inside : more (.value value)) : WellScoped target (.value value) where
  filled _ reaches := filled_of_evaluate success wellScoped.filled reaches
  named := by
    intro captured param body leads name free differs
    have fits := spreads.territory.fits (spreads.territory.closed.leads inside leads) .nil
    cases bound : captured.contains name with
    | true => rfl
    | false =>
      have failed : (captured.extend param .nil).find target name =
          .error (.unbound name none) := by
        rw [Env.extend, Env.find, if_neg (Ne.symm differs), Env.find_of_not_contains bound]
      cases (fits.lookups free failed name none rfl).1

end

/-- In a well-scoped environment, a program whose free names are bound finds every name but those
that a definition reads in its own bound expression, and gives back well-scoped values. It finds
every name if no definition at hand reads its own, those of functions apart. -/
theorem scoped_programs_find_their_names (limit : Nat) (env : Env) (expr : Expr) (store : Store)
    (wellScoped : WellScoped store (.env env))
    (bound : ∀ name, expr.Free name → env.contains name = true) :
    (∀ name reason target,
      evaluate limit env expr store = .error (.error (.unbound name reason)) target →
        reason = some Error.selfReference ∧
          ∃ bound body, AtHand store env expr (.letIn name bound body)) ∧
    (∀ value target, evaluate limit env expr store = .ok value target →
      WellScoped target (.value value)) ∧
    ((∀ name bound body, AtHand store env expr (.letIn name bound body) →
        bound.isLambda = true ∨ ¬ bound.Free name) →
      ∀ name reason target,
        evaluate limit env expr store ≠ .error (.error (.unbound name reason)) target) := by
  have keeps := keepsTerritory (scopePolicy store env expr) limit wellScoped.territory .refl
    (wellScoped.fits bound)
  have unbound : ∀ {name reason target},
      evaluate limit env expr store = .error (.error (.unbound name reason)) target →
        (scopePolicy store env expr).raises (.unbound name reason) := by
    intro name reason target failed
    rw [failed] at keeps
    cases keeps with
    | error raises => exact raises
    | limit noError => exact (noError _ rfl).elim
  refine ⟨?_, ?_, ?_⟩
  · intro name reason target failed
    obtain ⟨known, bound, body, atHand, -⟩ := unbound failed name reason rfl
    exact ⟨known, bound, body, atHand⟩
  · intro value target success
    have keeps := keeps
    rw [success] at keeps
    cases keeps with
    | ok spreads inside => exact wellScoped.of_spreads success spreads inside
  · intro harmless name reason target failed
    obtain ⟨-, bound, body, atHand, noFunction, free⟩ := unbound failed name reason rfl
    obtain function | fresh := harmless name bound body atHand
    · cases noFunction.symm.trans function
    · exact fresh free

/-- A recursive function in its own frame is well scoped, and so is what a definition in front of it
gives back. A definition that reads its own name in an operation fails for that reason. -/
theorem scoped_programs_find_their_names_behind_cycle :
    let env : Env := .recursive "f" 0 .empty
    let store : Store := ⟨#[some (.closure env "x" (.apply (.var "f") (.var "x")))]⟩
    let sound : Expr := .letIn "g" (.lambda "y" (.apply (.var "f") (.var "g")))
      (.binary .cons (.var "g") (.var "f"))
    let faulty : Expr := .letIn "h" (.binary .plus (.var "h") (.int 1)) (.var "f")
    WellScoped store (.env env) ∧ (∀ name, sound.Free name → env.contains name = true) ∧
      (∀ name, faulty.Free name → env.contains name = true) ∧
      (∃ value target, evaluate 3 env sound store = .ok value target ∧
        WellScoped target (.value value)) ∧
      ∃ name reason target,
        evaluate 3 env faulty store = .error (.error (.unbound name reason)) target ∧
          reason = some Error.selfReference ∧
            ∃ bound body, AtHand store env faulty (.letIn name bound body) := by
  intro env store sound faulty
  have wellScoped : WellScoped store (.env env) := by
    refine (wellScoped_empty store).recursive rfl fun name free differs => ?_
    obtain rfl | rfl := free
    · rfl
    · exact (differs rfl).elim
  have soundNames : ∀ name, sound.Free name → env.contains name = true := by
    rintro name ⟨differs, ⟨-, rfl | same⟩ | same | rfl⟩
    · rfl
    · exact (differs same).elim
    · exact (differs same).elim
    · rfl
  have faultyNames : ∀ name, faulty.Free name → env.contains name = true := by
    rintro name ⟨differs, (same | none) | rfl⟩
    · exact (differs same).elim
    · exact none.elim
    · rfl
  obtain ⟨-, given, -⟩ := scoped_programs_find_their_names 3 env sound store wellScoped soundNames
  obtain ⟨failed, -, -⟩ :=
    scoped_programs_find_their_names 3 env faulty store wellScoped faultyNames
  exact ⟨wellScoped, soundNames, faultyNames, ⟨_, _, rfl, given _ _ rfl⟩, _, _, _, rfl,
    failed _ _ _ rfl⟩

end MiniFun
