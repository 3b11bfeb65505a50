import Mathlib.Algebra.Order.Ring.Nat
import Mathlib.Data.List.Basic
import Mathlib.Data.List.Induction
import Mathlib.Tactic.Ring
import OscMonitor.Number.Numeral

/-!
# Decimal digits

A natural number and its digits determine each other: the digits that are written for a number read
back as it, and a number that is read from digits has no more digits than were read.

* `Text.digitsValue_append` — the value of digits that follow other digits.
* `Text.digitsValue_ofNat` — the digits of a number have its value.
* `decimalLength_digitsValue_le` — reading digits makes no further digits.
* `Numeral.splitDigits_append` — all digits at the front are split off, and no more.
-/

namespace OscMonitor

/-! ## Code points -/

namespace CodePoint

theorem digit?_eq_some_iff {p : CodePoint} {n : Nat} :
    p.digit? = some n ↔ ∃ c : Char, p = .scalar c ∧ c.toNat = 48 + n ∧ n < 10 := by
  cases p with
  | surrogate offset => simp [digit?]
  | scalar c =>
    have hLow : ('0' ≤ c) ↔ 48 ≤ c.toNat := Iff.rfl
    have hHigh : (c ≤ '9') ↔ c.toNat ≤ 57 := Iff.rfl
    simp only [digit?, hLow, hHigh, Option.ite_none_right_eq_some, Option.some.injEq, scalar.injEq,
      exists_eq_left']
    omega

theorem digit?_lt {p : CodePoint} {n : Nat} (h : p.digit? = some n) : n < 10 := by
  obtain ⟨-, -, -, hn⟩ := digit?_eq_some_iff.mp h
  exact hn

theorem digit?_scalar_of_isDigit {c : Char} (h : c.isDigit = true) :
    (scalar c).digit? = some (c.toNat - 48) := by
  simp only [Char.isDigit, Bool.and_eq_true, decide_eq_true_eq] at h
  exact if_pos h

theorem isDigit_scalar (c : Char) : (scalar c).isDigit = c.isDigit := by
  have hIff : ('0' ≤ c ∧ c ≤ '9') ↔ c.isDigit = true := by
    simp only [Char.isDigit, Bool.and_eq_true, decide_eq_true_eq]
    exact Iff.rfl
  rw [isDigit, digit?, Bool.eq_iff_iff, ← hIff]
  split <;> simp_all

end CodePoint

/-! ## Values -/

namespace Text

theorem digitsValue_concat (t : Text) (p : CodePoint) :
    digitsValue (t ++ [p]) = 10 * digitsValue t + p.digit?.getD 0 :=
  List.foldl_append

/-- The value of digits that follow other digits. -/
theorem digitsValue_append (s t : Text) :
    digitsValue (s ++ t) = digitsValue s * 10 ^ t.length + digitsValue t := by
  induction t using List.reverseRecOn with
  | nil => simp [digitsValue]
  | append_singleton t p ih =>
    rw [← List.append_assoc, digitsValue_concat, digitsValue_concat, ih, List.length_append,
      List.length_singleton, Nat.pow_succ]
    ring

theorem digitsValue_lt (t : Text) : digitsValue t < 10 ^ t.length := by
  induction t using List.reverseRecOn with
  | nil => exact Nat.one_pos
  | append_singleton t p ih =>
    have hDigit : p.digit?.getD 0 < 10 := by
      cases h : p.digit? with
      | none => exact Nat.succ_pos 9
      | some n => exact CodePoint.digit?_lt h
    rw [digitsValue_concat, List.length_append, List.length_singleton, Nat.pow_succ]
    omega

theorem digitsValue_replicate_zero (n : Nat) :
    digitsValue (List.replicate n (.scalar '0')) = 0 := by
  induction n with
  | zero => rfl
  | succ n ih =>
    rw [List.replicate_succ', digitsValue_concat, ih]
    rfl

theorem digitsValue_map_scalar {cs : List Char} (h : ∀ c ∈ cs, c.isDigit = true) :
    digitsValue (cs.map .scalar) = Nat.ofDigitChars 10 cs 0 := by
  induction cs using List.reverseRecOn with
  | nil => rfl
  | append_singleton cs c ih =>
    have hDigit := CodePoint.digit?_scalar_of_isDigit (h c (by simp))
    rw [List.map_append, List.map_singleton, digitsValue_concat,
      ih fun c' hc' => h c' (List.mem_append_left _ hc'), hDigit, Nat.ofDigitChars_append]
    rfl

/-! ## Written numbers -/

theorem isDigit_of_mem_ofNat {n : Nat} {p : CodePoint} (h : p ∈ ofNat n) : p.isDigit = true := by
  obtain ⟨c, hc, rfl⟩ := List.mem_map.mp h
  rw [CodePoint.isDigit_scalar]
  exact Nat.isDigit_of_mem_toDigits (by decide) (by decide) hc

/-- The digits of a number have its value. -/
theorem digitsValue_ofNat (n : Nat) : digitsValue (ofNat n) = n := by
  rw [ofNat, digitsValue_map_scalar fun c hc =>
    Nat.isDigit_of_mem_toDigits (by decide) (by decide) hc]
  exact Nat.ofDigitChars_ten_toDigits

theorem length_ofNat (n : Nat) : (ofNat n).length = decimalLength n := List.length_map ..

theorem ofNat_ne_nil (n : Nat) : ofNat n ≠ [] := by
  rw [ofNat, Ne, List.map_eq_nil_iff]
  exact Nat.toDigits_ne_nil

theorem head_toDigits_ne_zero {n : Nat} (hn : n ≠ 0) : (Nat.toDigits 10 n).head? ≠ some '0' := by
  induction n using Nat.strongRecOn with
  | ind n ih =>
    rw [Nat.toDigits_eq_if (by decide)]
    split
    · next hLt =>
      -- one digit, which is not zero
      have hDigits : ∀ m < 10, m ≠ 0 → [Nat.digitChar m].head? ≠ some '0' := by decide
      exact hDigits n hLt hn
    · next hGe =>
      have hDiv : n / 10 ≠ 0 := by omega
      have hHead := ih (n / 10) (by omega) hDiv
      rwa [List.head?_append_of_ne_nil _ Nat.toDigits_ne_nil]

/-- The first digit of a number but zero is not zero. -/
theorem head_ofNat_ne_zero {n : Nat} (hn : n ≠ 0) : (ofNat n).head? ≠ some (.scalar '0') := by
  rw [ofNat, List.head?_map]
  intro h
  obtain ⟨c, hc, hZero⟩ := Option.map_eq_some_iff.mp h
  rw [CodePoint.scalar.inj hZero] at hc
  exact head_toDigits_ne_zero hn hc

end Text

/-! ## Numbers of digits -/

theorem decimalLength_pos (n : Nat) : 0 < decimalLength n := Nat.length_toDigits_pos

theorem decimalLength_le_iff {n k : Nat} (hk : 0 < k) : decimalLength n ≤ k ↔ n < 10 ^ k :=
  Nat.length_toDigits_le_iff (by decide) hk

theorem lt_pow_decimalLength (n : Nat) : n < 10 ^ decimalLength n :=
  (decimalLength_le_iff (decimalLength_pos n)).mp (Nat.le_refl _)

/-- A number but zero has no fewer digits than it takes to reach it. -/
theorem pow_decimalLength_le {n : Nat} (hn : n ≠ 0) : 10 ^ (decimalLength n - 1) ≤ n := by
  by_cases hOne : decimalLength n = 1
  · rw [hOne]
    exact Nat.one_le_iff_ne_zero.mpr hn
  · have hPos := decimalLength_pos n
    by_contra hLt
    have hLe := (decimalLength_le_iff (by omega)).mpr (Nat.lt_of_not_le hLt)
    omega

/-- Reading digits makes no further digits. -/
theorem decimalLength_digitsValue_le {t : Text} (ht : t ≠ []) :
    decimalLength (Text.digitsValue t) ≤ t.length :=
  (decimalLength_le_iff (List.length_pos_iff.mpr ht)).mpr (Text.digitsValue_lt t)

/-! ## Digits at the front -/

/-- What is taken from the front ends where it has to. -/
theorem List.takeWhile_append_of_head {α : Type} {p : α → Bool} {front rest : List α}
    (hFront : ∀ a ∈ front, p a = true) (hRest : ∀ a, rest.head? = some a → p a = false) :
    (front ++ rest).takeWhile p = front := by
  have hNone : rest.takeWhile p = [] := by
    cases rest with
    | nil => rfl
    | cons a rest => simp [hRest a rfl]
  rw [List.takeWhile_append_of_pos hFront, hNone, List.append_nil]

/-- All digits at the front are split off, and no more. -/
theorem Numeral.splitDigits_append {digits rest : Text} (hDigits : ∀ p ∈ digits, p.isDigit = true)
    (hRest : ∀ p, rest.head? = some p → p.isDigit = false) :
    splitDigits (digits ++ rest) = (digits, rest) := by
  have hTake : (digits ++ rest).takeWhile (·.isDigit) = digits :=
    List.takeWhile_append_of_head hDigits hRest
  have hDrop : (digits ++ rest).dropWhile (·.isDigit) = rest := by
    have hParts : (digits ++ rest).takeWhile (·.isDigit) ++ (digits ++ rest).dropWhile (·.isDigit) =
        digits ++ rest := List.takeWhile_append_dropWhile
    rw [hTake] at hParts
    exact List.append_cancel_left hParts
  rw [splitDigits, hTake, hDrop]

end OscMonitor
