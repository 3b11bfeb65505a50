import OscMonitor.Number.Double

/-!
# Shortest decimals

The decimal with the fewest digits that reads back as a given double, and of those the nearest to
it. On each grid of decimals only the two neighbours of the double can be the answer; the first
grid, from one digit to seventeen, with a neighbour that reads back decides.

* `Double.shortest` is that decimal; seventeen digits tell any two doubles apart.
-/

namespace OscMonitor.Double

/-- The greatest `k` such that `10 ^ k` is at most the quotient of two positive numbers. -/
def decimalOrder (num den : Nat) : Int :=
  let k : Int := (decimalLength num : Int) - decimalLength den
  let (n, d) := scaleDecimal num den k
  if d ≤ n then k else k - 1

/-- The neighbours of a quotient on the grid of multiples of `10 ^ p`, the nearer first; at equal
distance the even one is first. -/
def neighbours (num den : Nat) (p : Int) : List Decimal :=
  let (n, d) := scaleDecimal num den p
  let q := n / d
  let r := n % d
  let below := Decimal.reduce q p
  let above := Decimal.reduce (q + 1) p
  if 2 * r < d ∨ (2 * r = d ∧ q % 2 = 0) then [below, above] else [above, below]

/-- The exact decimal expansion of a double's magnitude. -/
def expansion (mantissa : Nat) (exponent : Int) : Decimal :=
  if 0 ≤ exponent then Decimal.reduce (mantissa * Nat.pow 2 exponent.toNat) 0
  else Decimal.reduce (mantissa * Nat.pow 5 (-exponent).toNat) exponent

/-- The decimals that are tried, in order. -/
def candidates (mantissa : Nat) (exponent : Int) : List Decimal :=
  let (n, d) := quotient mantissa exponent
  let order := decimalOrder n d
  (List.range 17).flatMap fun (k : Nat) => neighbours n d (order - k)

/-- The shortest decimal of a finite double's magnitude. -/
def shortest (mantissa : Nat) (exponent : Int) : Decimal :=
  if mantissa = 0 then ⟨0, 0⟩
  else
    ((candidates mantissa exponent).find?
      (fun c => ofDecimal false c = pack false mantissa exponent)).getD
        (expansion mantissa exponent)

end OscMonitor.Double
