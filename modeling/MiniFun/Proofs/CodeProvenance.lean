import MiniFun.Proofs.ErrorValues
import MiniFun.Proofs.RoundTrip
import MiniFun.Proofs.ScopeSafety
import MiniFun.Proofs.ViablePrefix

/-! # Where code comes from

Evaluation writes no code of its own. The body of every closure that it makes stands in the program
or in the body of a closure that the host program bound, and a closure that was there before is one
of the latter. The two forms of expression that evaluation refuses are not written in programs, so
as long as the host program brings none along, no call of any closure ever comes across them.

The argument is one for policies under which any name may turn out to have no value. Then there is
nothing to ask of the environment but that the functions within reach are such that may be made.
-/

namespace MiniFun

/-! ## Policies that let lookups fail -/

namespace Policy

def Permits (policy : Policy) (node : Node) : Prop :=
  ∀ env param body, node = .value (.closure env param body) → policy.makes param body

/-- Any name in code that may be evaluated may turn out to have no value, and the functions that may
be made consist of such code. -/
structure Tolerant (policy : Policy) : Prop where
  allows_body : ∀ {param body}, policy.makes param body → policy.allows body
  raises_unbound : ∀ {expr name}, policy.allows expr → expr.Free name →
    policy.raises (.unbound name none) ∧
      policy.raises (.unbound name (some Error.selfReference))

namespace Tolerant

variable {policy : Policy} {limit : Nat} {store target : Store} {env : Env} {expr : Expr}
  (tolerant : policy.Tolerant)
include tolerant

private theorem fits (allowed : policy.allows expr) : policy.Fits store env expr := by
  refine ⟨allowed, fun free failed => ?_⟩
  obtain ⟨noBinding, unfilled⟩ := tolerant.raises_unbound allowed free
  obtain rfl | rfl := Env.unbound_of_find failed
  · exact noBinding
  · exact unfilled

/-- The nodes that reach permitted functions only are a territory. -/
theorem territory : Territory policy store (Throughout store policy.Permits) where
  closed := ⟨Throughout.part⟩
  made throughout := throughout _ .refl _ _ _ rfl
  fits throughout _ := tolerant.fits (tolerant.allows_body (throughout _ .refl _ _ _ rfl))

private theorem keeps (permitted : Throughout store policy.Permits (.env env))
    (allowed : policy.allows expr) :
    Keeps policy (Throughout store policy.Permits) (evaluate limit env expr store) :=
  keepsTerritory policy limit tolerant.territory permitted (tolerant.fits allowed)

/-- All functions that the result reaches may be made. -/
theorem permits_of_evaluate (permitted : Throughout store policy.Permits (.env env))
    (allowed : policy.allows expr) {value : Value}
    (success : evaluate limit env expr store = .ok value target) :
    Throughout target policy.Permits (.value value) := by
  have keeps : Keeps policy (Throughout store policy.Permits) (evaluate limit env expr store) :=
    tolerant.keeps permitted allowed
  rw [success] at keeps
  cases keeps with
  | ok spreads inside =>
    rintro other leads captured param body rfl
    exact spreads.territory.made (spreads.territory.closed.leads inside leads)

theorem raises_of_evaluate (permitted : Throughout store policy.Permits (.env env))
    (allowed : policy.allows expr) {cause : Error}
    (failed : evaluate limit env expr store = .error (.error cause) target) :
    policy.raises cause := by
  have keeps : Keeps policy (Throughout store policy.Permits) (evaluate limit env expr store) :=
    tolerant.keeps permitted allowed
  rw [failed] at keeps
  cases keeps with
  | error raises => exact raises
  | limit noError => exact (noError cause rfl).elim

end Tolerant

/-- The environment of an interpreter reaches permitted functions only, if the bindings of the host
program do. -/
theorem permits_env (policy : Policy) (interpreter : Interpreter) {store : Store}
    (permitted : ∀ binding ∈ interpreter.bindings,
      Throughout store policy.Permits (.value binding.2)) :
    Throughout store policy.Permits (.env interpreter.env) :=
  interpreter.env_of_bindings (.of_parts nofun nofun) (fun _ => .of_parts nofun nofun)
    (fun behind content name => behind.extend content name nofun) permitted

end Policy

/-! ## Expressions of the language -/

namespace Expr

/-- Whether the expression is of a form that programs do not write. -/
def isForeign : Expr → Bool
  | unknown .. | embedded _ => true
  | _ => false

def InLanguage (expr : Expr) : Prop :=
  ∀ part : Expr, part.Occurs expr → part.isForeign = false

theorem InLanguage.part {whole part : Expr} (inLanguage : whole.InLanguage)
    (member : part ∈ whole.parts) : part.InLanguage :=
  fun inner occurs => inLanguage inner (.head member occurs)

theorem WellFormed.part {whole part : Expr} (wellFormed : whole.WellFormed)
    (member : part ∈ whole.parts) : part.WellFormed := by
  cases whole with
  | int | bool | var | nil => simp [parts] at member
  | unknown | embedded => exact wellFormed.elim
  | binary op left right =>
    obtain rfl | rfl : part = left ∨ part = right := by simpa [parts] using member
    · exact wellFormed.1
    · exact wellFormed.2
  | apply function argument =>
    obtain rfl | rfl : part = function ∨ part = argument := by simpa [parts] using member
    · exact wellFormed.1
    · exact wellFormed.2
  | cond test consequent alternative =>
    obtain rfl | rfl | rfl : part = test ∨ part = consequent ∨ part = alternative := by
      simpa [parts] using member
    · exact wellFormed.1
    · exact wellFormed.2.1
    · exact wellFormed.2.2
  | letIn name bound body =>
    obtain rfl | rfl : part = bound ∨ part = body := by simpa [parts] using member
    · exact wellFormed.2.1
    · exact wellFormed.2.2
  | lambda param body =>
    obtain rfl : part = body := by simpa [parts] using member
    exact wellFormed.2

theorem WellFormed.inLanguage {expr : Expr} (wellFormed : expr.WellFormed) : expr.InLanguage := by
  intro part occurs
  have inner : part.WellFormed := by
    induction occurs with
    | refl => exact wellFormed
    | tail _ member ih => exact ih.part member
  cases part with
  | unknown | embedded => exact inner.elim
  | _ => rfl

end Expr

/-! ## Code of programs and code of the host program -/

/-- The body of a closure that a binding of the host program reaches. -/
def Interpreter.HostBody (interpreter : Interpreter) (store : Store) (body : Expr) : Prop :=
  ∃ binding ∈ interpreter.bindings, ∃ captured param,
    Leads store (.value binding.2) (.value (.closure captured param body))

def WrittenIn (program : Expr) (bodies : Expr → Prop) (code : Expr) : Prop :=
  code.Occurs program ∨ ∃ body, bodies body ∧ code.Occurs body

private theorem WrittenIn.part {program : Expr} {bodies : Expr → Prop} {whole part : Expr}
    (written : WrittenIn program bodies whole) (member : part ∈ whole.parts) :
    WrittenIn program bodies part := by
  obtain occurs | ⟨body, known, occurs⟩ := written
  · exact .inl (occurs.part member)
  · exact .inr ⟨body, known, occurs.part member⟩

/-- Code of the language that is written in the program or in one of the bodies may be evaluated,
and may raise anything but internal errors. -/
def codePolicy (program : Expr) (bodies : Expr → Prop) : Policy where
  allows code := code.InLanguage ∧ WrittenIn program bodies code
  makes _ body := body.InLanguage ∧ WrittenIn program bodies body
  raises cause := ∀ fault, cause ≠ .internal fault
  allows_part allowed member := ⟨allowed.1.part member, allowed.2.part member⟩
  makes_lambda {param body} allowed := by
    have member : body ∈ (Expr.lambda param body).parts := List.mem_singleton_self body
    exact ⟨allowed.1.part member, allowed.2.part member⟩
  raises_mistyped := nofun
  raises_emptyList := nofun
  raises_unknown allowed := by cases allowed.1 _ .refl
  raises_embedded allowed := by cases allowed.1 _ .refl
  raises_unfilled := nofun

private theorem codePolicy_tolerant (program : Expr) (bodies : Expr → Prop) :
    (codePolicy program bodies).Tolerant :=
  ⟨fun made => made, fun _ _ => ⟨nofun, nofun⟩⟩

/-- If the closures that the host program bound are written in the language, no text is evaluated to
an internal error. Every closure within reach of a result has its body from the text or from one of
these closures. -/
theorem internal_errors_unreachable (interpreter : Interpreter) (store : Store)
    (inLanguage : ∀ body, interpreter.HostBody store body → body.InLanguage) (source : String) :
    (∀ fault target,
      interpreter.evaluateText source store ≠ .error (.error (.internal fault)) target) ∧
    ∀ value target, interpreter.evaluateText source store = .ok value target →
      ∃ program, parse source = .ok program ∧ ∀ captured param body,
        Leads target (.value value) (.value (.closure captured param body)) →
          WrittenIn program (interpreter.HostBody store) body := by
  cases parsed : parse source with
  | error failure =>
    rw [interpreter.evaluateText_of_error store parsed]
    refine ⟨?_, nofun⟩
    rintro fault target ⟨⟩
    obtain ⟨_, _, same, -⟩ := malformed_of_parse parsed
    cases same
  | ok program =>
    rw [interpreter.evaluateText_of_ok parsed]
    have tolerant := codePolicy_tolerant program (interpreter.HostBody store)
    have allowed : (codePolicy program (interpreter.HostBody store)).allows program :=
      ⟨(wellFormed_of_parse parsed).inLanguage, .inl .refl⟩
    -- The closures of the host program are written in their own bodies.
    have permitted : Throughout store (codePolicy program (interpreter.HostBody store)).Permits
        (.env interpreter.env) := by
      refine Policy.permits_env _ interpreter fun binding member => ?_
      rintro _ leads captured param body rfl
      have host : interpreter.HostBody store body := ⟨binding, member, captured, param, leads⟩
      exact ⟨inLanguage body host, .inr ⟨body, host, .refl⟩⟩
    constructor
    · intro fault target failed
      exact tolerant.raises_of_evaluate permitted allowed failed fault rfl
    · intro value target success
      refine ⟨program, rfl, fun captured param body leads => ?_⟩
      exact (tolerant.permits_of_evaluate permitted allowed success _ leads _ _ _ rfl).2

/-- A function that calls itself in its own frame is bound. A program defines another one and puts
both into a pair; their bodies are written in the program and in the binding. -/
theorem internal_errors_unreachable_behind_cycle :
    let loop : Expr := .apply (.var "f") (.var "n")
    let function : Value := .closure (.recursive "f" 0 .empty) "n" loop
    let store : Store := ⟨#[some function]⟩
    let interpreter : Interpreter := ⟨[("again", function)]⟩
    let source := "let g = \\x -> again (g x) in g : again"
    let program : Expr := .letIn "g"
      (.lambda "x" (.apply (.var "again") (.apply (.var "g") (.var "x"))))
      (.binary .cons (.var "g") (.var "again"))
    (∀ body, interpreter.HostBody store body → body.InLanguage) ∧
      parse source = .ok program ∧ ∃ value target,
        interpreter.evaluateText source store = .ok value target ∧
        ∀ captured param body,
          Leads target (.value value) (.value (.closure captured param body)) →
            WrittenIn program (interpreter.HostBody store) body := by
  intro loop function store interpreter source program
  have closed : HoldsKnown store fun node =>
      node = .value (.closure (.recursive "f" 0 .empty) "n" loop) ∨
        node = .env (.recursive "f" 0 .empty) ∨ node = .env .empty := by
    refine ⟨?_⟩
    rintro _ _ (rfl | rfl | rfl) holds
    · cases holds with
      | captured => exact .inr (.inl rfl)
    · cases holds with
      | inFrame known =>
        cases known
        exact .inl rfl
      | behindRecursive => exact .inr (.inr rfl)
    · cases holds
  have inLanguage : ∀ body, interpreter.HostBody store body → body.InLanguage := by
    rintro body ⟨binding, member, captured, param, leads⟩
    obtain rfl := List.mem_singleton.mp member
    obtain same | same | same := closed.leads (.inl rfl) leads
    · cases same
      have first : IsName "f" := ⟨⟨'f', [], rfl, rfl, List.all_eq_true.mp rfl⟩, by decide⟩
      have second : IsName "n" := ⟨⟨'n', [], rfl, rfl, List.all_eq_true.mp rfl⟩, by decide⟩
      have wellFormed : loop.WellFormed := ⟨first, second⟩
      exact wellFormed.inLanguage
    · cases same
    · cases same
  have parsed : parse source = .ok program := parse_of_toOption (by decide +kernel)
  have success : interpreter.evaluateText source store = interpreter.evaluate program store := by
    rw [interpreter.evaluateText_of_ok parsed]
  obtain ⟨-, written⟩ := internal_errors_unreachable interpreter store inLanguage source
  obtain ⟨other, same, origins⟩ := written _ _ success
  obtain rfl := Except.ok.inj (parsed.symm.trans same)
  exact ⟨inLanguage, parsed, _, _, success, origins⟩

end MiniFun
