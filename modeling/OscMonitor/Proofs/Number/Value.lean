import OscMonitor.Proofs.Number.Exact

/-!
# Values of doubles

A finite double stands for a rational number. The integer that a double is taken as is that number,
and there is none when the number is no integer. A double counts as positive, or as at most zero,
by that number; the infinities are on either side, and what is not a number is on neither.

Main results:

* `Double.value?` — the number that a double stands for.
* `Double.toInt?_eq_some_iff` — the integer of a double is its value.
* `Double.nonpositive_iff`, `Double.nonpositive_eq_false_iff` — the comparison with zero.
-/

namespace OscMonitor.Double

/-- The number that a double stands for; only the finite ones do. -/
def value? : Double → Option ℚ
  | .finite negative mantissa exponent _ =>
    some (if negative then -(mantissa * 2 ^ exponent) else mantissa * 2 ^ exponent)
  | _ => none

/-! ## Integers -/

/-- A quotient is an integer when nothing is left by the division. -/
theorem div_eq_natCast_iff {num den k : Nat} (hDen : 0 < den) :
    (num : ℚ) / den = k ↔ num % den = 0 ∧ num / den = k := by
  have hDen' : (den : ℚ) ≠ 0 := Nat.cast_ne_zero.mpr (Nat.ne_of_gt hDen)
  rw [div_eq_iff hDen', ← Nat.cast_mul, Nat.cast_inj]
  constructor
  · rintro rfl
    exact ⟨Nat.mul_mod_left k den, Nat.mul_div_cancel k hDen⟩
  · rintro ⟨hMod, rfl⟩
    exact (Nat.div_mul_cancel (Nat.dvd_of_mod_eq_zero hMod)).symm

/-- The magnitude of a double is its quotient. -/
theorem quotient_ratio (mantissa : Nat) (exponent : Int) :
    0 < (quotient mantissa exponent).2 ∧
      ((quotient mantissa exponent).1 : ℚ) / (quotient mantissa exponent).2 =
        mantissa * 2 ^ exponent := by
  obtain ⟨hPos, hRatio⟩ := scaleBinary_ratio mantissa Nat.one_pos (-exponent)
  refine ⟨hPos, hRatio.trans ?_⟩
  rw [Nat.cast_one, div_one, zpow_neg, div_inv_eq_mul]

/-- **The integer of a double is its value**, and a double whose value is an integer has it. -/
theorem toInt?_eq_some_iff {x : Double} {n : Int} :
    x.toInt? = some n ↔ x.value? = some (n : ℚ) := by
  cases x with
  | nan | infinite _ => simp [toInt?, value?]
  | finite negative m e h =>
    obtain ⟨hPos, hRatio⟩ := quotient_ratio m e
    have hNonneg : (0 : ℚ) ≤ m * 2 ^ e := by positivity
    -- a magnitude that is an integer is a natural number
    have hMagnitude : ∀ k : Int, (m : ℚ) * 2 ^ e = k ↔
        (quotient m e).1 % (quotient m e).2 = 0 ∧
          (((quotient m e).1 / (quotient m e).2 : Nat) : Int) = k := by
      intro k
      constructor
      · intro hk
        lift k to Nat using Int.cast_nonneg_iff.mp (hk ▸ hNonneg)
        rw [← hRatio, Int.cast_natCast, div_eq_natCast_iff hPos] at hk
        exact ⟨hk.1, congrArg _ hk.2⟩
      · rintro ⟨hMod, rfl⟩
        rw [← hRatio, Int.cast_natCast]
        exact (div_eq_natCast_iff hPos).mpr ⟨hMod, rfl⟩
    have hInt : (finite negative m e h).toInt? = some n ↔
        (quotient m e).1 % (quotient m e).2 = 0 ∧
          (((quotient m e).1 / (quotient m e).2 : Nat) : Int) = if negative then -n else n := by
      unfold toInt?
      dsimp only
      rw [Option.ite_none_right_eq_some, Option.some.injEq]
      cases negative with
      | false => rfl
      | true => exact and_congr_right fun _ => neg_eq_iff_eq_neg
    rw [hInt, ← hMagnitude, value?, Option.some.injEq]
    cases negative with
    | false => rfl
    | true =>
      rw [if_pos rfl, if_pos rfl, Int.cast_neg]
      exact neg_eq_iff_eq_neg.symm

/-! ## Comparison with zero -/

/-- A double above zero. -/
def IsPositive (x : Double) : Prop := x = .infinite false ∨ ∃ q, x.value? = some q ∧ 0 < q

/-- A double that is zero or below. -/
def IsNonpositive (x : Double) : Prop := x = .infinite true ∨ ∃ q, x.value? = some q ∧ q ≤ 0

theorem nonpositive_iff {x : Double} : x.nonpositive = true ↔ x.IsNonpositive := by
  cases x with
  | nan => simp [nonpositive, IsNonpositive, value?]
  | infinite negative => cases negative <;> simp [nonpositive, IsNonpositive, value?]
  | finite negative m e h =>
    -- the power of two is positive, so sign and significand decide
    have hPow : (0 : ℚ) < 2 ^ e := by positivity
    cases negative with
    | false =>
      have hZero : (m : ℚ) * 2 ^ e ≤ 0 ↔ m = 0 := by
        rw [← not_lt, mul_pos_iff_of_pos_right hPow, Nat.cast_pos, Nat.pos_iff_ne_zero, not_not]
      simp [nonpositive, IsNonpositive, value?, hZero]
    | true =>
      have hNonneg : (0 : ℚ) ≤ m * 2 ^ e := by positivity
      simp [nonpositive, IsNonpositive, value?, hNonneg]

theorem nonpositive_eq_false_iff {x : Double} :
    x.nonpositive = false ↔ x = .nan ∨ x.IsPositive := by
  rw [← Bool.not_eq_true, nonpositive_iff]
  cases x with
  | nan => simp [IsNonpositive, value?]
  | infinite negative => cases negative <;> simp [IsNonpositive, IsPositive, value?]
  | finite negative m e h => simp [IsNonpositive, IsPositive, value?]

end OscMonitor.Double
