import OscMonitor.Text.Basic
import OscMonitor.Number.Shortest

/-!
# Written numbers

How a double is written: in full, with as many digits as it takes to read it back, or with a
fixed number of places.

* `Layout.write` lays out sign, digits and exponent; `Double.text` uses the layout of replies.
* `Double.fixed` writes a fixed number of places, exactly rounded, a tie to the even digit.
-/

namespace OscMonitor

/-- The decisions of a notation: from which orders of magnitude on a number is written with an
exponent, and how few digits an exponent has. -/
structure Layout where
  -- The least order written positionally.
  leastPositional : Int
  -- The greatest order written positionally.
  greatestPositional : Int
  -- The least number of digits of an exponent.
  exponentWidth : Nat

namespace Layout

/-- Numbers from `10 ^ -4` up to `10 ^ 16` stand positionally; exponents have a sign and at least
two digits. -/
def standard : Layout := ⟨-4, 15, 2⟩

/-- An exponent with its sign. -/
def writeExponent (l : Layout) (e : Int) : Text :=
  let digits := Text.ofNat e.natAbs
  let zeros : Text := List.replicate (l.exponentWidth - digits.length) (.scalar '0')
  .scalar 'e' :: .scalar (if e < 0 then '-' else '+') :: (zeros ++ digits)

/-- A decimal without its sign. A positional number always shows a digit on both sides of the
point; a number with an exponent has one digit before it, and no point when that is all. -/
def write (l : Layout) (d : Decimal) : Text :=
  let digits := Text.ofNat d.digits
  let order := d.exponent + digits.length - 1
  if d.digits = 0 then "0.0"
  else if l.leastPositional ≤ order ∧ order ≤ l.greatestPositional then
    if 0 ≤ d.exponent then
      digits ++ List.replicate d.exponent.toNat (CodePoint.scalar '0') ++ ".0"
    else if 0 ≤ order then
      digits.take (order + 1).toNat ++ "." ++ digits.drop (order + 1).toNat
    else "0." ++ List.replicate (-order - 1).toNat (CodePoint.scalar '0') ++ digits
  else
    match digits with
    | [] => []
    | [p] => p :: l.writeExponent order
    | p :: rest => p :: .scalar '.' :: (rest ++ l.writeExponent order)

end Layout

namespace Double

/-- A minus sign for negative numbers, the zero included. -/
def signText (negative : Bool) : Text := if negative then "-" else ""

/-- A double in full: the fewest digits that read back. -/
def text : Double → Text
  | .nan => "nan"
  | .infinite negative => signText negative ++ "inf"
  | .finite negative m e _ => signText negative ++ Layout.standard.write (shortest m e)

/-- A natural number with a point before its last `places` digits, and none when there are no
places. -/
def withPlaces (places n : Nat) : Text :=
  let digits := Text.ofNat n
  let padded : Text := List.replicate (places + 1 - digits.length) (.scalar '0') ++ digits
  let whole := padded.length - places
  if places = 0 then padded else padded.take whole ++ "." ++ padded.drop whole

/-- A double with a fixed number of places. -/
def fixed (places : Nat) : Double → Text
  | .nan => "nan"
  | .infinite negative => signText negative ++ "inf"
  | .finite negative m e _ =>
    let (n, d) := quotient m e
    signText negative ++ withPlaces places (roundHalfEven (n * Nat.pow 10 places) d)

end Double

end OscMonitor
