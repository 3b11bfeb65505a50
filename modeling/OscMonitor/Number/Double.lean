/-!
# Double precision numbers

The numbers a reply's fractional fields hold: binary64 values, kept exactly as `± m · 2 ^ e` in
the one canonical form that the format gives each of them, with the infinities and one
not-a-number.

* `Double.ofQuotient` rounds an exact quotient to the nearest double, a tie to the even mantissa.
* `Double.ofDecimal` reads a decimal `digits · 10 ^ exponent` the same way.
* `Double.toInt?` and `Double.ofInt?` are exact in the first case and rounded in the second.
-/

namespace OscMonitor

/-- A quotient rounded to the nearest integer, a tie to the even neighbour. -/
def roundHalfEven (num den : Nat) : Nat :=
  let q := num / den
  let r := num % den
  if 2 * r < den then q else if den < 2 * r then q + 1 else q + q % 2

/-- The mantissas and exponents of the finite doubles: a full mantissa of 53 bits, or a shorter one
at the least exponent. -/
def CanonicalDouble (mantissa : Nat) (exponent : Int) : Prop :=
  mantissa < Nat.pow 2 53 ∧ -1074 ≤ exponent ∧ exponent ≤ 971
    ∧ (Nat.pow 2 52 ≤ mantissa ∨ exponent = -1074)

instance (m : Nat) (e : Int) : Decidable (CanonicalDouble m e) := by
  unfold CanonicalDouble; infer_instance

/-- A binary64 number. -/
inductive Double where
  | nan
  | infinite (negative : Bool)
  | finite (negative : Bool) (mantissa : Nat) (exponent : Int)
      (canonical : CanonicalDouble mantissa exponent)
  deriving DecidableEq, Repr

/-- The decimal `digits · 10 ^ exponent`. -/
structure Decimal where
  digits : Nat
  exponent : Int
  deriving DecidableEq, Repr

/-- Moves the zeros at the end of the digits into the exponent. -/
def Decimal.reduce (digits : Nat) (exponent : Int) : Decimal :=
  if digits = 0 then ⟨0, 0⟩
  else if digits % 10 = 0 then reduce (digits / 10) (exponent + 1)
  else ⟨digits, exponent⟩
termination_by digits
decreasing_by omega

def decimalLength (n : Nat) : Nat := (Nat.toDigits 10 n).length

namespace Double

/-- A signed zero. -/
def zero (negative : Bool) : Double := .finite negative 0 (-1074) (by decide)

instance : Inhabited Double := ⟨zero false⟩

/-- The double with a mantissa and an exponent; what is beyond the format is infinite. -/
def pack (negative : Bool) (mantissa : Nat) (exponent : Int) : Double :=
  if h : CanonicalDouble mantissa exponent then .finite negative mantissa exponent h
  else .infinite negative

/-- The quotient `num / (den · 2 ^ e)` as numerator and denominator. -/
def scaleBinary (num den : Nat) (e : Int) : Nat × Nat :=
  if 0 ≤ e then (num, den * Nat.pow 2 e.toNat) else (num * Nat.pow 2 (-e).toNat, den)

/-- The greatest `k` such that `2 ^ k` is at most the quotient of two positive numbers. -/
def binaryOrder (num den : Nat) : Int :=
  let k : Int := (Nat.log2 num : Int) - Nat.log2 den
  let (n, d) := scaleBinary num den k
  if d ≤ n then k else k - 1

/-- The double nearest to a quotient; the denominator is positive. -/
def ofQuotient (negative : Bool) (num den : Nat) : Double :=
  if num = 0 then zero negative
  else
    let e := max (-1074) (binaryOrder num den - 52)
    let (n, d) := scaleBinary num den e
    let m := roundHalfEven n d
    if m = Nat.pow 2 53 then pack negative (Nat.pow 2 52) (e + 1) else pack negative m e

/-- The quotient `num / (den · 10 ^ e)` as numerator and denominator. -/
def scaleDecimal (num den : Nat) (e : Int) : Nat × Nat :=
  if 0 ≤ e then (num, den * Nat.pow 10 e.toNat) else (num * Nat.pow 10 (-e).toNat, den)

/-- The double nearest to a decimal. Decimals far outside the format are settled by their order
of magnitude. -/
def ofDecimal (negative : Bool) (d : Decimal) : Double :=
  let order := (decimalLength d.digits : Int) + d.exponent
  if d.digits = 0 ∨ order < -325 then zero negative
  else if 310 < order then .infinite negative
  else
    let (n, m) := scaleDecimal d.digits 1 (-d.exponent)
    ofQuotient negative n m

/-- The magnitude of a finite double as numerator and denominator. -/
def quotient (mantissa : Nat) (exponent : Int) : Nat × Nat := scaleBinary mantissa 1 (-exponent)

/-- The integer that a double equals, if it does. -/
def toInt? : Double → Option Int
  | .finite negative m e _ =>
    let (n, d) := quotient m e
    if n % d = 0 then some (if negative then -(n / d : Nat) else (n / d : Nat)) else none
  | _ => none

/-- The double nearest to an integer, unless the integer is beyond the format. -/
def ofInt? (n : Int) : Option Double :=
  match ofQuotient (n < 0) n.natAbs 1 with
  | .infinite _ => none
  | x => some x

/-- Whether a double is at most zero. -/
def nonpositive : Double → Bool
  | .nan => false
  | .infinite negative => negative
  | .finite negative m _ _ => negative || m == 0

end Double

end OscMonitor
