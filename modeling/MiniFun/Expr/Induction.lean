import MiniFun.Expr

/-! # Induction on one kind of tree

Expressions, values and environments are defined together, and most arguments concern one of the
three. Seen alone, an expression ends at the values embedded in it, a value ends at the code and
the environment of its closures, and an environment ends at its values.
-/

namespace MiniFun

/-- Induction on expressions; an embedded value is a leaf. -/
@[induction_eliminator]
theorem Expr.induction {motive : Expr → Prop}
    (int : ∀ value, motive (.int value))
    (bool : ∀ value, motive (.bool value))
    (var : ∀ name, motive (.var name))
    (nil : motive .nil)
    (binary : ∀ op left right, motive left → motive right → motive (.binary op left right))
    (cond : ∀ test consequent alternative, motive test → motive consequent →
      motive alternative → motive (.cond test consequent alternative))
    (letIn : ∀ name bound body, motive bound → motive body → motive (.letIn name bound body))
    (lambda : ∀ param body, motive body → motive (.lambda param body))
    (apply : ∀ function argument, motive function → motive argument →
      motive (.apply function argument))
    (unknown : ∀ symbol left right, motive left → motive right →
      motive (.unknown symbol left right))
    (embedded : ∀ value, motive (.embedded value)) (expr : Expr) : motive expr :=
  @Expr.rec motive (fun _ => True) (fun _ => True)
    int bool var nil binary cond letIn lambda apply unknown (fun value _ => embedded value)
    (fun _ => trivial) (fun _ => trivial) trivial (fun _ _ _ _ => trivial)
    (fun _ _ _ _ _ => trivial) (fun _ => trivial) (fun _ => trivial)
    trivial (fun _ _ _ _ _ => trivial) (fun _ _ _ _ => trivial) expr

/-- Induction on values; functions are leaves. -/
@[induction_eliminator]
theorem Value.induction {motive : Value → Prop}
    (int : ∀ value, motive (.int value))
    (bool : ∀ value, motive (.bool value))
    (nil : motive .nil)
    (pair : ∀ head tail, motive head → motive tail → motive (.pair head tail))
    (closure : ∀ env param body, motive (.closure env param body))
    (primitive : ∀ function, motive (.primitive function))
    (failed : ∀ message, motive (.failed message)) (value : Value) : motive value :=
  @Value.rec (fun _ => True) motive (fun _ => True)
    (fun _ => trivial) (fun _ => trivial) (fun _ => trivial) trivial
    (fun _ _ _ _ _ => trivial) (fun _ _ _ _ _ _ => trivial) (fun _ _ _ _ _ => trivial)
    (fun _ _ _ => trivial) (fun _ _ _ _ => trivial) (fun _ _ _ _ _ => trivial)
    (fun _ _ => trivial)
    int bool nil pair (fun env param body _ _ => closure env param body) primitive failed
    trivial (fun _ _ _ _ _ => trivial) (fun _ _ _ _ => trivial) value

/-- Induction on the bindings of an environment. -/
@[induction_eliminator]
theorem Env.induction {motive : Env → Prop}
    (empty : motive .empty)
    (bind : ∀ name value rest, motive rest → motive (.bind name value rest))
    (recursive : ∀ name cell rest, motive rest → motive (.recursive name cell rest))
    (env : Env) : motive env :=
  @Env.rec (fun _ => True) (fun _ => True) motive
    (fun _ => trivial) (fun _ => trivial) (fun _ => trivial) trivial
    (fun _ _ _ _ _ => trivial) (fun _ _ _ _ _ _ => trivial) (fun _ _ _ _ _ => trivial)
    (fun _ _ _ => trivial) (fun _ _ _ _ => trivial) (fun _ _ _ _ _ => trivial)
    (fun _ _ => trivial)
    (fun _ => trivial) (fun _ => trivial) trivial (fun _ _ _ _ => trivial)
    (fun _ _ _ _ _ => trivial) (fun _ => trivial) (fun _ => trivial)
    empty (fun name value rest _ step => bind name value rest step) recursive env

end MiniFun
