import OscMonitor.Text.Basic

/-!
# Blank code points

Two sets of blanks: Unicode white space, which is trimmed from numerals in a reply, and the wider
set that is trimmed from names, which adds the four information separators U+001C to U+001F.
-/

namespace OscMonitor.Text

/-- The Unicode property White_Space. -/
def isWhiteSpace (p : CodePoint) : Bool :=
  let n := p.number
  (9 ≤ n && n ≤ 13) || n == 0x20 || n == 0x85 || n == 0xA0 || n == 0x1680 ||
    (0x2000 ≤ n && n ≤ 0x200A) || n == 0x2028 || n == 0x2029 || n == 0x202F || n == 0x205F ||
    n == 0x3000

/-- White space and the information separators. -/
def isBlank (p : CodePoint) : Bool :=
  isWhiteSpace p || (0x1C ≤ p.number && p.number ≤ 0x1F)

/-- White space comes before the surrogates. -/
theorem number_lt_of_isWhiteSpace {p : CodePoint} (h : isWhiteSpace p = true) :
    p.number < 0xD800 := by
  simp only [isWhiteSpace, Bool.or_eq_true, Bool.and_eq_true, decide_eq_true_eq, beq_iff_eq] at h
  omega

end OscMonitor.Text
