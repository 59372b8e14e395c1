/-! # Computations one after the other

A sequence of two computations goes on with the result of the first one, or ends with its failure.
-/

namespace MiniFun

variable {ε σ α β : Type} {first : EStateM ε σ α} {second : α → EStateM ε σ β}

theorem bind_of_ok {source middle : σ} {result : α} (success : first source = .ok result middle) :
    (first >>= second) source = second result middle := by
  change EStateM.bind first second source = _
  rw [EStateM.bind, success]

theorem bind_of_error {source middle : σ} {failure : ε}
    (failed : first source = .error failure middle) :
    (first >>= second) source = .error failure middle := by
  change EStateM.bind first second source = _
  rw [EStateM.bind, failed]

/-- A sequence of two computations gives a result exactly when both do, one after the other. -/
theorem bind_eq_ok_iff {source target : σ} {result : β} :
    (first >>= second) source = .ok result target ↔
      ∃ value middle, first source = .ok value middle ∧ second value middle = .ok result target := by
  cases ran : first source with
  | ok value middle => simp [bind_of_ok ran, and_assoc]
  | error failure middle => simp [bind_of_error ran]

theorem map_of_ok {change : α → β} {source middle : σ} {result : α}
    (success : first source = .ok result middle) :
    (change <$> first) source = .ok (change result) middle := by
  change EStateM.map change first source = _
  rw [EStateM.map, success]

theorem map_of_error {change : α → β} {source middle : σ} {failure : ε}
    (failed : first source = .error failure middle) :
    (change <$> first) source = .error failure middle := by
  change EStateM.map change first source = _
  rw [EStateM.map, failed]

theorem pure_eq_ok_iff {value result : α} {source target : σ} :
    (pure value : EStateM ε σ α) source = .ok result target ↔ value = result ∧ source = target := by
  change EStateM.Result.ok value source = .ok result target ↔ _
  rw [EStateM.Result.ok.injEq]

end MiniFun
