import MiniFun.Text.Decimal

/-! # Numerals that are written can be read

The written numeral of a natural number has the digits of the basic alphabet, which are digits
among those of all scripts and worth the same. Read back, they give the number, and the limit on
their count is the same in both directions.
-/

namespace MiniFun.Text

/-- A digit of any script is worth less than ten. -/
private theorem digitValue?_lt {c : Char} {value : Nat} (known : digitValue? c = some value) :
    value < 10 := by
  obtain ⟨start, found, rfl⟩ := Option.map_eq_some_iff.mp known
  have range := List.find?_some found
  simp only [Bool.and_eq_true, decide_eq_true_eq] at range
  omega

/-- A row of digits denotes a number below the power of ten that its length names. -/
private theorem digitsValue_lt (digits : List Char) :
    digitsValue digits < Nat.pow 10 digits.length := by
  have step : ∀ (value : Nat) (c : Char), 10 * value + (digitValue? c).getD 0 < 10 * (value + 1) := by
    intro value c
    cases known : digitValue? c with
    | none => simp only [Option.getD_none]; omega
    | some digit =>
      have := digitValue?_lt known
      simp only [Option.getD_some]
      omega
  -- The value so far is scaled by the digits that are still to come.
  have scaled : ∀ value, digits.foldl (fun value c => 10 * value + (digitValue? c).getD 0) value <
      (value + 1) * Nat.pow 10 digits.length := by
    induction digits with
    | nil => intro value; simp
    | cons c rest ih =>
      intro value
      have power : Nat.pow 10 (rest.length + 1) = 10 * Nat.pow 10 rest.length := Nat.pow_succ'
      rw [List.foldl_cons, List.length_cons, power, ← Nat.mul_assoc]
      refine Nat.lt_of_lt_of_le (ih _) (Nat.mul_le_mul_right _ ?_)
      have := step value c
      omega
  simpa [digitsValue] using scaled 0

/-- The digits of the basic alphabet are the first ones in the table. -/
private theorem digitValue?_of_isDigit {c : Char} (digit : c.isDigit = true) :
    digitValue? c = some (c.toNat - '0'.toNat) := by
  have range : 48 ≤ c.toNat ∧ c.toNat ≤ 57 := by
    simp only [Char.isDigit, Bool.and_eq_true, decide_eq_true_eq] at digit
    exact digit
  have first : digitZeros.find? (fun start => start ≤ c.toNat && c.toNat < start + 10) =
      some 48 := by
    refine List.find?_cons_of_pos ?_
    simp only [Bool.and_eq_true, decide_eq_true_eq]
    omega
  rw [digitValue?, first]
  rfl

theorem isDigit_of_mem_toDigits {n : Nat} {c : Char} (member : c ∈ Nat.toDigits 10 n) :
    isDigit c = true := by
  have digit : c.isDigit = true := Nat.isDigit_of_mem_toDigits (by decide) (by decide) member
  rw [isDigit, digitValue?_of_isDigit digit]
  rfl

theorem digitsValue_toDigits (n : Nat) : digitsValue (Nat.toDigits 10 n) = n := by
  have same : ∀ (digits : List Char) (value : Nat), (∀ c ∈ digits, c.isDigit = true) →
      digits.foldl (fun value c => 10 * value + (digitValue? c).getD 0) value =
        Nat.ofDigitChars 10 digits value := by
    intro digits
    induction digits with
    | nil => intro value _; rfl
    | cons c rest ih =>
      intro value basic
      rw [List.foldl_cons, ih _ fun other member => basic other (List.mem_cons_of_mem _ member),
        digitValue?_of_isDigit (basic c List.mem_cons_self)]
      rfl
  rw [digitsValue, same _ 0 fun c member =>
    Nat.isDigit_of_mem_toDigits (by decide) (by decide) member]
  exact Nat.ofDigitChars_ten_toDigits

theorem decimal_of_nonneg {n : Int} (nonneg : 0 ≤ n) :
    (decimal n).toList = Nat.toDigits 10 n.natAbs := by
  simp [decimal, Int.not_lt.mpr nonneg]

/-- A number is short enough to be written exactly if its numeral is. -/
theorem lt_unwritable_iff {n : Nat} :
    n < unwritable ↔ (Nat.toDigits 10 n).length ≤ numeralLimit := by
  have positive : 0 < numeralLimit := by decide
  unfold unwritable
  -- The power is not to be computed.
  generalize numeralLimit = limit at positive ⊢
  exact (Nat.length_toDigits_le_iff (by decide) positive).symm

/-- The numeral of a natural number is written if it is short enough, and then reads back. -/
theorem readNumeral?_decimal {n : Int} (nonneg : 0 ≤ n)
    (short : (decimal n).length ≤ numeralLimit) :
    writeNumeral? n = some (decimal n) ∧ readNumeral? (decimal n).toList = some n.natAbs := by
  have digits : (Nat.toDigits 10 n.natAbs).length ≤ numeralLimit := by
    rw [← decimal_of_nonneg nonneg, String.length_toList]
    exact short
  refine ⟨if_pos (lt_unwritable_iff.mpr digits), ?_⟩
  rw [decimal_of_nonneg nonneg, readNumeral?, if_pos digits, digitsValue_toDigits]

/-- The number of a numeral that can be read is short enough to be written. -/
theorem length_decimal_le {digits : List Char} {value : Nat}
    (readable : readNumeral? digits = some value) :
    (decimal value).length ≤ numeralLimit := by
  unfold readNumeral? at readable
  split at readable
  · rename_i short
    obtain rfl := Option.some.inj readable
    rw [← String.length_toList, decimal_of_nonneg (Int.natCast_nonneg _), Int.natAbs_natCast,
      ← lt_unwritable_iff]
    unfold unwritable
    generalize numeralLimit = limit at short ⊢
    exact Nat.lt_of_lt_of_le (digitsValue_lt digits) (Nat.pow_le_pow_right (by decide) short)
  · cases readable

end MiniFun.Text
