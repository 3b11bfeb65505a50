import Mathlib.Algebra.Order.Field.Basic
import Mathlib.Algebra.Order.Field.Power
import Mathlib.Algebra.Order.Ring.Rat
import Mathlib.Data.Rat.Cast.Order
import Mathlib.Tactic.FieldSimp
import Mathlib.Tactic.Linarith
import Mathlib.Tactic.NormNum
import Mathlib.Tactic.Positivity
import Mathlib.Tactic.Ring
import OscMonitor.Number.Shortest
import OscMonitor.Proofs.Number.Digits

/-!
# Exact decimals of doubles

Rounding leaves alone what is a double already: a quotient that equals a double is rounded to that
double, and so is a decimal. A double therefore reads back from its expansion, and from the shortest
decimal all the more, which is either a decimal that reads back or the expansion.

* `binaryOrder_spec` — the order of magnitude of a quotient.
* `ofQuotient_of_eq`, `ofDecimal_of_eq` — a quotient or a decimal that equals a double.
* `ofDecimal_shortest` — the shortest decimal of a double reads back as the double.
-/

namespace OscMonitor

/-! ## Scaling -/

/-- A quotient that is scaled by a power of a base, its denominator positive. -/
theorem ratio_of_scale (num : Nat) {den : Nat} (hDen : 0 < den) {base : Nat} (hBase : 0 < base)
    (e : Int) :
    let scaled := if 0 ≤ e then (num, den * Nat.pow base e.toNat)
      else (num * Nat.pow base (-e).toNat, den)
    0 < scaled.2 ∧ (scaled.1 : ℚ) / scaled.2 = num / den / (base : ℚ) ^ e := by
  intro scaled
  have hBase' : (base : ℚ) ≠ 0 := Nat.cast_ne_zero.mpr (Nat.ne_of_gt hBase)
  by_cases he : 0 ≤ e
  · have hScaled : scaled = (num, den * base ^ e.toNat) := if_pos he
    have hPow : (base : ℚ) ^ e = (base : ℚ) ^ e.toNat := by
      rw [← zpow_natCast, Int.toNat_of_nonneg he]
    rw [hScaled, hPow]
    refine ⟨Nat.mul_pos hDen (Nat.pow_pos hBase), ?_⟩
    push_cast
    rw [div_div]
  · have hScaled : scaled = (num * base ^ (-e).toNat, den) := if_neg he
    have hPow : (base : ℚ) ^ e = ((base : ℚ) ^ (-e).toNat)⁻¹ := by
      rw [← zpow_natCast, Int.toNat_of_nonneg (by omega), zpow_neg, inv_inv]
    rw [hScaled, hPow]
    refine ⟨hDen, ?_⟩
    push_cast
    rw [div_inv_eq_mul]
    ring

namespace Double

theorem scaleBinary_ratio (num : Nat) {den : Nat} (hDen : 0 < den) (e : Int) :
    0 < (scaleBinary num den e).2 ∧
      ((scaleBinary num den e).1 : ℚ) / (scaleBinary num den e).2 = num / den / 2 ^ e := by
  have h := ratio_of_scale num hDen Nat.two_pos e
  push_cast at h
  exact h

theorem scaleDecimal_ratio (num : Nat) {den : Nat} (hDen : 0 < den) (e : Int) :
    0 < (scaleDecimal num den e).2 ∧
      ((scaleDecimal num den e).1 : ℚ) / (scaleDecimal num den e).2 = num / den / 10 ^ e := by
  have h := ratio_of_scale num hDen (show 0 < 10 by decide) e
  push_cast at h
  exact h

/-! ## Rounding -/

/-- The order of magnitude of a quotient. -/
theorem binaryOrder_spec {num den : Nat} (hNum : 0 < num) (hDen : 0 < den) :
    (2 : ℚ) ^ binaryOrder num den ≤ num / den ∧
      (num : ℚ) / den < 2 ^ (binaryOrder num den + 1) := by
  obtain ⟨k, hk⟩ : ∃ k : Int, k = (Nat.log2 num : Int) - Nat.log2 den := ⟨_, rfl⟩
  have hDen' : (0 : ℚ) < den := Nat.cast_pos.mpr hDen
  -- numerator and denominator lie between powers of two that follow one another
  have hNumLow : (2 : ℚ) ^ (Nat.log2 num : Int) ≤ num := by
    exact_mod_cast Nat.log2_self_le (Nat.ne_of_gt hNum)
  have hNumHigh : (num : ℚ) < 2 ^ ((Nat.log2 num : Int) + 1) := by
    exact_mod_cast Nat.lt_log2_self (n := num)
  have hDenLow : (2 : ℚ) ^ (Nat.log2 den : Int) ≤ den := by
    exact_mod_cast Nat.log2_self_le (Nat.ne_of_gt hDen)
  have hDenHigh : (den : ℚ) < 2 ^ ((Nat.log2 den : Int) + 1) := by
    exact_mod_cast Nat.lt_log2_self (n := den)
  -- so the quotient lies between two powers around its order
  have hLow : (2 : ℚ) ^ (k - 1) ≤ num / den := by
    rw [le_div_iff₀ hDen']
    calc (2 : ℚ) ^ (k - 1) * den ≤ 2 ^ (k - 1) * 2 ^ ((Nat.log2 den : Int) + 1) := by gcongr
      _ = 2 ^ (Nat.log2 num : Int) := by
        rw [← zpow_add₀ two_ne_zero]
        congr 1
        omega
      _ ≤ num := hNumLow
  have hHigh : (num : ℚ) / den < 2 ^ (k + 1) := by
    rw [div_lt_iff₀ hDen']
    calc (num : ℚ) < 2 ^ ((Nat.log2 num : Int) + 1) := hNumHigh
      _ = 2 ^ (k + 1) * 2 ^ (Nat.log2 den : Int) := by
        rw [← zpow_add₀ two_ne_zero]
        congr 1
        omega
      _ ≤ 2 ^ (k + 1) * den := by gcongr
  -- and the comparison tells on which side of the middle one
  obtain ⟨hPos, hRatio⟩ := scaleBinary_ratio num hDen k
  have hPos' : (0 : ℚ) < (scaleBinary num den k).2 := Nat.cast_pos.mpr hPos
  have hPow : (0 : ℚ) < 2 ^ k := by positivity
  have hSide : (scaleBinary num den k).2 ≤ (scaleBinary num den k).1 ↔
      (2 : ℚ) ^ k ≤ num / den := by
    rw [← one_le_div₀ hPow, ← hRatio, one_le_div₀ hPos', Nat.cast_le]
  have hOrder : binaryOrder num den =
      if (scaleBinary num den k).2 ≤ (scaleBinary num den k).1 then k else k - 1 := by
    rw [hk]
    rfl
  rw [hOrder]
  by_cases h : (scaleBinary num den k).2 ≤ (scaleBinary num den k).1
  · rw [if_pos h]
    exact ⟨hSide.mp h, hHigh⟩
  · rw [if_neg h, sub_add_cancel]
    exact ⟨hLow, lt_of_not_ge (mt hSide.mpr h)⟩

theorem roundHalfEven_mul {den : Nat} (hDen : 0 < den) (m : Nat) :
    roundHalfEven (m * den) den = m := by
  unfold roundHalfEven
  rw [Nat.mul_div_cancel _ hDen, Nat.mul_mod_left]
  exact if_pos hDen

/-- The exponent at which a canonical double is rounded. -/
theorem exponent_of_binaryOrder {m : Nat} {e k : Int} (h : CanonicalDouble m e)
    (hLow : (2 : ℚ) ^ k ≤ m * 2 ^ e) (hHigh : (m : ℚ) * 2 ^ e < 2 ^ (k + 1)) :
    max (-1074) (k - 52) = e := by
  obtain ⟨hMax, hMin, -, hFull⟩ := h
  have hPow : (0 : ℚ) < 2 ^ e := by positivity
  have hLt : (m : ℚ) * 2 ^ e < 2 ^ (e + 53) := by
    have hm : (m : ℚ) < 2 ^ (53 : Int) := by exact_mod_cast hMax
    rw [zpow_add₀ two_ne_zero, mul_comm]
    exact mul_lt_mul_of_pos_left hm hPow
  have hUpper : k < e + 53 := (zpow_lt_zpow_iff_right₀ one_lt_two).mp (hLow.trans_lt hLt)
  rcases hFull with hFull | rfl
  · -- a full mantissa fixes the order
    have hGe : (2 : ℚ) ^ (e + 52) ≤ m * 2 ^ e := by
      have hm : (2 : ℚ) ^ (52 : Int) ≤ m := by exact_mod_cast hFull
      rw [zpow_add₀ two_ne_zero, mul_comm]
      exact mul_le_mul_of_nonneg_right hm hPow.le
    have hLower : e + 52 < k + 1 := (zpow_lt_zpow_iff_right₀ one_lt_two).mp (hGe.trans_lt hHigh)
    omega
  · omega

/-- A quotient that equals a double is rounded to it. -/
theorem ofQuotient_of_eq {num den m : Nat} {e : Int} (hDen : 0 < den) (hm : m ≠ 0)
    (h : CanonicalDouble m e) (hEq : (num : ℚ) / den = m * 2 ^ e) (negative : Bool) :
    ofQuotient negative num den = .finite negative m e h := by
  have hDen' : (den : ℚ) ≠ 0 := Nat.cast_ne_zero.mpr (Nat.ne_of_gt hDen)
  have hNum : num ≠ 0 := by
    rintro rfl
    have hNonzero : (m : ℚ) * 2 ^ e ≠ 0 :=
      mul_ne_zero (Nat.cast_ne_zero.mpr hm) (zpow_ne_zero _ two_ne_zero)
    rw [← hEq, Nat.cast_zero, zero_div] at hNonzero
    exact hNonzero rfl
  obtain ⟨hLow, hHigh⟩ := binaryOrder_spec (Nat.pos_of_ne_zero hNum) hDen
  rw [hEq] at hLow hHigh
  have hExponent := exponent_of_binaryOrder h hLow hHigh
  -- at that exponent the scaled quotient is the mantissa
  obtain ⟨hPos, hRatio⟩ := scaleBinary_ratio num hDen e
  have hPos' : ((scaleBinary num den e).2 : ℚ) ≠ 0 := Nat.cast_ne_zero.mpr (Nat.ne_of_gt hPos)
  have hScaled : (scaleBinary num den e).1 = m * (scaleBinary num den e).2 := by
    rw [hEq, mul_div_assoc, div_self (zpow_ne_zero _ two_ne_zero), mul_one,
      div_eq_iff hPos'] at hRatio
    exact_mod_cast hRatio
  have hRound : roundHalfEven (scaleBinary num den e).1 (scaleBinary num den e).2 = m := by
    rw [hScaled, roundHalfEven_mul hPos]
  have hMantissa : m ≠ Nat.pow 2 53 := Nat.ne_of_lt h.1
  unfold ofQuotient
  rw [if_neg hNum]
  simp only [hExponent, hRound]
  rw [if_neg hMantissa, pack, dif_pos h]

end Double

/-! ## Decimals -/

namespace Decimal

/-- The number that a decimal denotes. -/
def value (d : Decimal) : ℚ := d.digits * 10 ^ d.exponent

/-- A decimal with no zeros at the end of its digits. -/
def IsReduced (d : Decimal) : Prop := d = ⟨0, 0⟩ ∨ d.digits % 10 ≠ 0

/-- Zeros at the end of the digits make no difference to the number. -/
theorem value_reduce (digits : Nat) (exponent : Int) :
    (reduce digits exponent).value = digits * 10 ^ exponent := by
  fun_induction reduce digits exponent with
  | case1 => simp [value]
  | case2 digits exponent hNonzero hZero ih =>
    have hDigits : (digits : ℚ) = (digits / 10 : Nat) * 10 := by
      exact_mod_cast (Nat.div_mul_cancel (Nat.dvd_of_mod_eq_zero hZero)).symm
    rw [ih, hDigits, zpow_add₀ (by norm_num), zpow_one]
    ring
  | case3 => rfl

theorem isReduced_reduce (digits : Nat) (exponent : Int) : (reduce digits exponent).IsReduced := by
  fun_induction reduce digits exponent with
  | case1 => exact .inl rfl
  | case2 _ _ _ _ ih => exact ih
  | case3 _ _ _ hLast => exact .inr hLast

theorem reduce_zero (exponent : Int) : reduce 0 exponent = ⟨0, 0⟩ := by
  rw [reduce, if_pos rfl]

theorem reduce_of_ne {digits : Nat} (h : digits % 10 ≠ 0) (exponent : Int) :
    reduce digits exponent = ⟨digits, exponent⟩ := by
  have hNonzero : digits ≠ 0 := by
    rintro rfl
    exact h rfl
  rw [reduce, if_neg hNonzero, if_neg h]

/-- The zeros that are moved into the exponent are those that were put at the end of the digits. -/
theorem reduce_mul_pow (digits : Nat) (exponent : Int) (n : Nat) :
    reduce (digits * 10 ^ n) (exponent - n) = reduce digits exponent := by
  induction n generalizing exponent with
  | zero => simp
  | succ n ih =>
    rcases Nat.eq_zero_or_pos digits with rfl | hPos
    · rw [Nat.zero_mul, reduce_zero, reduce_zero]
    · have hNonzero : digits * 10 ^ (n + 1) ≠ 0 :=
        Nat.ne_of_gt (Nat.mul_pos hPos (Nat.pow_pos (by decide)))
      have hSplit : digits * 10 ^ (n + 1) = digits * 10 ^ n * 10 := by ring
      have hExponent : exponent - ((n + 1 : Nat) : Int) + 1 = exponent - n := by omega
      rw [reduce, if_neg hNonzero, hSplit, if_pos (Nat.mul_mod_left _ _),
        Nat.mul_div_cancel _ (by decide), hExponent, ih]

/-- A reduced decimal comes back when zeros are put at the end of its digits. -/
theorem IsReduced.reduce_mul_pow {d : Decimal} (h : d.IsReduced) (n : Nat) :
    reduce (d.digits * 10 ^ n) (d.exponent - n) = d := by
  rw [Decimal.reduce_mul_pow]
  rcases h with rfl | hLast
  · exact reduce_zero 0
  · exact reduce_of_ne hLast _

/-- The order of magnitude of a decimal. -/
theorem value_bounds {d : Decimal} (hDigits : d.digits ≠ 0) :
    (10 : ℚ) ^ ((decimalLength d.digits : Int) + d.exponent - 1) ≤ d.value ∧
      d.value < 10 ^ ((decimalLength d.digits : Int) + d.exponent) := by
  have hPow : (0 : ℚ) < 10 ^ d.exponent := by positivity
  have hPos := decimalLength_pos d.digits
  constructor
  · have hLow : (10 : ℚ) ^ ((decimalLength d.digits : Int) - 1) ≤ d.digits := by
      have hLength : (decimalLength d.digits : Int) - 1 = (decimalLength d.digits - 1 : Nat) := by
        omega
      rw [hLength]
      exact_mod_cast pow_decimalLength_le hDigits
    rw [add_sub_right_comm, zpow_add₀ (by norm_num)]
    exact mul_le_mul_of_nonneg_right hLow hPow.le
  · have hHigh : (d.digits : ℚ) < 10 ^ (decimalLength d.digits : Int) := by
      exact_mod_cast lt_pow_decimalLength d.digits
    rw [zpow_add₀ (by norm_num)]
    exact mul_lt_mul_of_pos_right hHigh hPow

end Decimal

namespace Double

/-- The magnitudes of the doubles but zero lie between these powers of ten. -/
theorem magnitude_bounds {m : Nat} {e : Int} (hm : m ≠ 0) (h : CanonicalDouble m e) :
    (10 : ℚ) ^ (-324 : Int) < m * 2 ^ e ∧ (m : ℚ) * 2 ^ e < 10 ^ (309 : Int) := by
  obtain ⟨hMax, hMin, hExponent, -⟩ := h
  have hOne : (1 : ℚ) ≤ m := by exact_mod_cast Nat.one_le_iff_ne_zero.mpr hm
  have hMantissa : (m : ℚ) < 2 ^ (53 : Int) := by exact_mod_cast hMax
  constructor
  · have hLeast : (10 : ℚ) ^ (-324 : Int) < 2 ^ (-1074 : Int) := by
      have hNat : 2 ^ 1074 < 10 ^ 324 := by decide +kernel
      rw [zpow_neg, zpow_neg, inv_lt_inv₀ (by positivity) (by positivity)]
      exact_mod_cast hNat
    calc (10 : ℚ) ^ (-324 : Int) < 2 ^ (-1074 : Int) := hLeast
      _ ≤ 2 ^ e := zpow_le_zpow_right₀ one_le_two hMin
      _ ≤ m * 2 ^ e := le_mul_of_one_le_left (by positivity) hOne
  · have hGreatest : (2 : ℚ) ^ (53 : Int) * 2 ^ (971 : Int) < 10 ^ (309 : Int) := by
      have hNat : 2 ^ 53 * 2 ^ 971 < 10 ^ 309 := by decide +kernel
      exact_mod_cast hNat
    calc (m : ℚ) * 2 ^ e ≤ m * 2 ^ (971 : Int) :=
          mul_le_mul_of_nonneg_left (zpow_le_zpow_right₀ one_le_two hExponent) (by positivity)
      _ ≤ 2 ^ (53 : Int) * 2 ^ (971 : Int) :=
          mul_le_mul_of_nonneg_right hMantissa.le (by positivity)
      _ < 10 ^ (309 : Int) := hGreatest

/-- A decimal that equals a double is read as it. -/
theorem ofDecimal_of_eq {d : Decimal} {m : Nat} {e : Int} (hm : m ≠ 0) (h : CanonicalDouble m e)
    (hEq : d.value = m * 2 ^ e) (negative : Bool) :
    ofDecimal negative d = .finite negative m e h := by
  obtain ⟨hLeast, hGreatest⟩ := magnitude_bounds hm h
  rw [← hEq] at hLeast hGreatest
  have hDigits : d.digits ≠ 0 := by
    intro hZero
    rw [Decimal.value, hZero, Nat.cast_zero, zero_mul] at hLeast
    exact absurd hLeast (not_lt_of_gt (by positivity))
  -- the order of magnitude is one that is not settled in advance
  obtain ⟨hLow, hHigh⟩ := Decimal.value_bounds hDigits
  have hOneLt : (1 : ℚ) < 10 := by norm_num
  have hAbove := (zpow_lt_zpow_iff_right₀ hOneLt).mp (hLeast.trans hHigh)
  have hBelow := (zpow_lt_zpow_iff_right₀ hOneLt).mp (hLow.trans_lt hGreatest)
  have hSmall : ¬ (d.digits = 0 ∨ (decimalLength d.digits : Int) + d.exponent < -325) := by omega
  have hLarge : ¬ (310 < (decimalLength d.digits : Int) + d.exponent) := by omega
  -- and the quotient is the decimal
  obtain ⟨hPos, hRatio⟩ := scaleDecimal_ratio d.digits Nat.one_pos (-d.exponent)
  have hQuotient : ((scaleDecimal d.digits 1 (-d.exponent)).1 : ℚ) /
      (scaleDecimal d.digits 1 (-d.exponent)).2 = m * 2 ^ e := by
    rw [hRatio, ← hEq, Decimal.value, Nat.cast_one, div_one, zpow_neg, div_inv_eq_mul]
  unfold ofDecimal
  dsimp only
  rw [if_neg hSmall, if_neg hLarge]
  exact ofQuotient_of_eq hPos hm h hQuotient negative

/-! ## Shortest decimals -/

theorem value_expansion (m : Nat) (e : Int) : (expansion m e).value = m * 2 ^ e := by
  unfold expansion
  split
  · next he =>
    rw [Decimal.value_reduce, zpow_zero, mul_one, Nat.pow_eq]
    push_cast
    rw [← zpow_natCast, Int.toNat_of_nonneg he]
  · next he =>
    have hTen : (10 : ℚ) = 5 * 2 := by norm_num
    have hFive : (5 : ℚ) ^ (-e).toNat * 5 ^ e = 1 := by
      rw [← zpow_natCast, Int.toNat_of_nonneg (by omega), ← zpow_add₀ (by norm_num),
        neg_add_cancel, zpow_zero]
    rw [Decimal.value_reduce, hTen, mul_zpow, Nat.pow_eq]
    push_cast
    calc (m : ℚ) * 5 ^ (-e).toNat * (5 ^ e * 2 ^ e)
        = m * (5 ^ (-e).toNat * 5 ^ e) * 2 ^ e := by ring
      _ = m * 2 ^ e := by rw [hFive, mul_one]

theorem isReduced_of_mem_candidates {m : Nat} {e : Int} {d : Decimal} (h : d ∈ candidates m e) :
    d.IsReduced := by
  obtain ⟨k, -, hd⟩ := List.mem_flatMap.mp h
  unfold neighbours at hd
  dsimp only at hd
  split at hd
  all_goals
    simp only [List.mem_cons, List.not_mem_nil, or_false] at hd
    rcases hd with rfl | rfl
    · exact Decimal.isReduced_reduce _ _
    · exact Decimal.isReduced_reduce _ _

theorem isReduced_shortest (m : Nat) (e : Int) : (shortest m e).IsReduced := by
  unfold shortest
  split
  · exact .inl rfl
  · cases hFind : (candidates m e).find? _ with
    | none =>
      show (expansion m e).IsReduced
      unfold expansion
      split <;> exact Decimal.isReduced_reduce _ _
    | some d => exact isReduced_of_mem_candidates (List.mem_of_find?_eq_some hFind)

/-- A double with a sign of its own. -/
def withSign (negative : Bool) : Double → Double
  | .nan => .nan
  | .infinite _ => .infinite negative
  | .finite _ m e h => .finite negative m e h

theorem withSign_pack (negative sign : Bool) (m : Nat) (e : Int) :
    (pack sign m e).withSign negative = pack negative m e := by
  unfold pack
  split <;> rfl

theorem withSign_ofQuotient (negative sign : Bool) (num den : Nat) :
    (ofQuotient sign num den).withSign negative = ofQuotient negative num den := by
  unfold ofQuotient
  split
  · rfl
  · dsimp only
    split <;> exact withSign_pack negative sign _ _

/-- The sign of a decimal does not matter for its rounding. -/
theorem withSign_ofDecimal (negative sign : Bool) (d : Decimal) :
    (ofDecimal sign d).withSign negative = ofDecimal negative d := by
  unfold ofDecimal
  dsimp only
  split
  · rfl
  · split
    · rfl
    · exact withSign_ofQuotient negative sign _ _

/-- The shortest decimal of a double reads back as the double. -/
theorem ofDecimal_shortest {m : Nat} {e : Int} (h : CanonicalDouble m e) (negative : Bool) :
    ofDecimal negative (shortest m e) = .finite negative m e h := by
  have hPack : pack false m e = .finite false m e h := dif_pos h
  by_cases hm : m = 0
  · -- zero has one exponent
    subst hm
    obtain ⟨-, -, -, hFull⟩ := id h
    have he : e = -1074 := hFull.resolve_left (by decide)
    subst he
    rfl
  · unfold shortest
    rw [if_neg hm]
    cases hFind : (candidates m e).find? _ with
    | none => exact ofDecimal_of_eq hm h (value_expansion m e) negative
    | some d =>
      have hBack : ofDecimal false d = pack false m e := by
        have hFound := List.find?_some hFind
        exact of_decide_eq_true hFound
      rw [Option.getD_some, ← withSign_ofDecimal negative false d, hBack, hPack]
      rfl

end Double

end OscMonitor
