import OscMonitor.Document.Printer
import OscMonitor.Proofs.Document.Extent
import OscMonitor.Proofs.Number.Exact

/-!
# Scalars that are read back

A number that is printed is scanned as the same number, whatever follows it in a document: an
integer by its digits, and a double by the digits, the point and the exponent of its shortest
decimal, in each of the layouts that a double has.

* `Stops` — what follows a value in a document.
* `scanNumber?_ofNat` — the digits of an integer are scanned as the integer, if it is not too long.
* `scanNumber?_write` — a reduced decimal is scanned as the double that is nearest to it.
* `scans_ofInt`, `scans_printDouble` — printed numbers are tokens of their values.
-/

namespace OscMonitor.Lexeme

open Numeral (splitDigits splitExponent? decimal signed)

/-- What follows a value in a document: nothing, a comma or a closing bracket. -/
def Stops (rest : Text) : Prop :=
  ∀ p, rest.head? = some p → p = .scalar ',' ∨ p = .scalar ']' ∨ p = .scalar '}'

theorem stops_nil : Stops [] := nofun

theorem Stops.head_ne {rest : Text} (h : Stops rest) {c : Char} (hc : c ≠ ',' ∧ c ≠ ']' ∧ c ≠ '}') :
    rest.head? ≠ some (.scalar c) := by
  intro hHead
  rcases h _ hHead with hEq | hEq | hEq
  · exact hc.1 (CodePoint.scalar.inj hEq)
  · exact hc.2.1 (CodePoint.scalar.inj hEq)
  · exact hc.2.2 (CodePoint.scalar.inj hEq)

theorem Stops.isDigit {rest : Text} (h : Stops rest) :
    ∀ p, rest.head? = some p → p.isDigit = false := by
  intro p hHead
  rcases h p hHead with rfl | rfl | rfl <;> rfl

/-! ## The parts of a number -/

/-- The digits before a point: zero alone, or digits of which the first is none. -/
structure IsWhole (whole : Text) : Prop where
  digits : ∀ p ∈ whole, p.isDigit = true
  nonempty : whole ≠ []
  lead : whole = [.scalar '0'] ∨ whole.head? ≠ some (.scalar '0')

theorem isWhole_zero : IsWhole [.scalar '0'] := ⟨by decide, by decide, .inl rfl⟩

theorem isWhole_ofNat (n : Nat) : IsWhole (Text.ofNat n) where
  digits _ := Text.isDigit_of_mem_ofNat
  nonempty := Text.ofNat_ne_nil n
  lead := by
    by_cases hn : n = 0
    · subst hn
      exact .inl rfl
    · exact .inr (Text.head_ofNat_ne_zero hn)

/-- Digits that begin as the digits of a number but zero do. -/
theorem isWhole_of_append {n : Nat} (hn : n ≠ 0) {whole tail : Text} (hNonempty : whole ≠ [])
    (hPrefix : Text.ofNat n = whole ++ tail) : IsWhole whole where
  digits p hp := by
    refine Text.isDigit_of_mem_ofNat (n := n) ?_
    rw [hPrefix]
    exact List.mem_append_left _ hp
  nonempty := hNonempty
  lead := by
    have hHead := Text.head_ofNat_ne_zero hn
    rw [hPrefix, List.head?_append_of_ne_nil _ hNonempty] at hHead
    exact .inr hHead

theorem splitWhole?_append {whole rest : Text} (h : IsWhole whole)
    (hRest : ∀ p, rest.head? = some p → p.isDigit = false) :
    splitWhole? (whole ++ rest) = some (whole, rest) := by
  rcases h.lead with rfl | hLead
  · rfl
  · have hSplit := Numeral.splitDigits_append h.digits hRest
    obtain ⟨p, whole, rfl⟩ := List.exists_cons_of_ne_nil h.nonempty
    have hp : p ≠ .scalar '0' := fun hEq => hLead (by rw [hEq]; rfl)
    unfold splitWhole?
    split
    · next hEq => exact absurd (List.cons.inj hEq).1 hp
    · rw [hSplit]

theorem splitFraction_of_head_ne {rest : Text} (h : rest.head? ≠ some (.scalar '.')) :
    splitFraction rest = ([], rest) := by
  unfold splitFraction
  split
  · exact absurd rfl h
  · rfl

theorem splitFraction_point {fraction rest : Text} (hDigits : ∀ p ∈ fraction, p.isDigit = true)
    (hNonempty : fraction ≠ []) (hRest : ∀ p, rest.head? = some p → p.isDigit = false) :
    splitFraction (.scalar '.' :: (fraction ++ rest)) = (fraction, rest) := by
  have hSplit := Numeral.splitDigits_append hDigits hRest
  obtain ⟨p, fraction, rfl⟩ := List.exists_cons_of_ne_nil hNonempty
  simp only [splitFraction, hSplit]

theorem splitExponent?_of_stops {rest : Text} (h : Stops rest) : splitExponent? rest = none := by
  cases rest with
  | nil => rfl
  | cons p rest => rcases h p rfl with rfl | rfl | rfl <;> rfl

/-- An exponent that is written is split off. -/
theorem splitExponent?_writeExponent (l : Layout) (e : Int) {rest : Text}
    (hRest : ∀ p, rest.head? = some p → p.isDigit = false) :
    splitExponent? (l.writeExponent e ++ rest) = some (e, rest) := by
  obtain ⟨digits, hDigits⟩ : ∃ digits : Text, digits =
      List.replicate (l.exponentWidth - (Text.ofNat e.natAbs).length) (.scalar '0') ++
        Text.ofNat e.natAbs := ⟨_, rfl⟩
  -- the digits with the zeros in front of them, seen as one word of digits
  have hWritten : l.writeExponent e =
      .scalar 'e' :: .scalar (if e < 0 then '-' else '+') :: digits := by
    rw [hDigits]
    rfl
  have hAll : ∀ p ∈ digits, p.isDigit = true := by
    intro p hp
    rw [hDigits] at hp
    rcases List.mem_append.mp hp with hZero | hDigit
    · rw [List.eq_of_mem_replicate hZero]
      rfl
    · exact Text.isDigit_of_mem_ofNat hDigit
  have hNonempty : digits ≠ [] := by
    rw [hDigits]
    exact List.append_ne_nil_of_right_ne_nil _ (Text.ofNat_ne_nil _)
  have hValue : Text.digitsValue digits = e.natAbs := by
    rw [hDigits, Text.digitsValue_append, Text.digitsValue_replicate_zero, Nat.zero_mul,
      Nat.zero_add, Text.digitsValue_ofNat]
  have hSplit := Numeral.splitDigits_append hAll hRest
  obtain ⟨p, digits, rfl⟩ := List.exists_cons_of_ne_nil hNonempty
  rw [hWritten]
  -- the sign is always written, and decides how the value is put together
  by_cases he : e < 0
  · have hSigned : signed true e.natAbs = e := by
      simp only [signed, if_true]
      omega
    simp only [if_pos he, splitExponent?, List.cons_append, true_or, if_true, Numeral.splitSign]
    rw [← List.cons_append, hSplit]
    simp only [hValue, hSigned]
  · have hSigned : signed false e.natAbs = e := by
      simp only [signed, Bool.false_eq_true, if_false]
      omega
    simp only [if_neg he, splitExponent?, List.cons_append, true_or, if_true, Numeral.splitSign]
    rw [← List.cons_append, hSplit]
    simp only [hValue, hSigned]

/-! ## Numbers -/

variable (negative : Bool)

/-- The digits of an integer are scanned as the integer, unless there are too many. -/
theorem scanNumber?_ofNat (n : Nat) {rest : Text} (hRest : Stops rest) :
    scanNumber? negative (.ofNat n ++ rest) =
      some (if decimalLength n ≤ Numeral.digitLimit then .scalar (.int (signed negative n))
        else .badScalar (.tooManyDigits (decimalLength n)), rest) := by
  have hWhole := splitWhole?_append (isWhole_ofNat n) hRest.isDigit
  have hFraction := splitFraction_of_head_ne (hRest.head_ne (c := '.') (by decide))
  simp only [scanNumber?, hWhole, hFraction, splitExponent?_of_stops hRest, Option.bind_eq_bind,
    Option.bind_some, Text.digitsValue_ofNat, Text.length_ofNat]
  -- the reader counts the digits that are written, and there are no zeros in front
  split
  · next hLong => rw [if_neg (Nat.not_le_of_lt hLong)]
  · next hShort => rw [if_pos (Nat.le_of_not_lt hShort)]

/-- Digits, a point and more digits are scanned as a double. -/
theorem scanNumber?_point {whole fraction rest : Text} (hWhole : IsWhole whole)
    (hDigits : ∀ p ∈ fraction, p.isDigit = true) (hNonempty : fraction ≠ []) (hRest : Stops rest) :
    scanNumber? negative (whole ++ .scalar '.' :: (fraction ++ rest)) =
      some (.scalar (.float (Double.ofDecimal negative (decimal whole fraction 0))), rest) := by
  have hPoint : ∀ p, (CodePoint.scalar '.' :: (fraction ++ rest)).head? = some p →
      p.isDigit = false := by
    rintro p ⟨rfl⟩
    rfl
  have hSplit := splitWhole?_append hWhole hPoint
  have hFraction := splitFraction_point hDigits hNonempty hRest.isDigit
  have hExponent := splitExponent?_of_stops hRest
  obtain ⟨p, fraction, rfl⟩ := List.exists_cons_of_ne_nil hNonempty
  simp only [scanNumber?, hSplit, hFraction, hExponent, Option.bind_eq_bind, Option.bind_some]

/-- Digits, perhaps a point and more digits, and an exponent are scanned as a double. -/
theorem scanNumber?_exponent {e : Int} {whole fraction tail rest : Text} (hWhole : IsWhole whole)
    (hFraction : splitFraction tail = (fraction, Layout.standard.writeExponent e ++ rest))
    (hTail : ∀ p, tail.head? = some p → p.isDigit = false) (hRest : Stops rest) :
    scanNumber? negative (whole ++ tail) =
      some (.scalar (.float (Double.ofDecimal negative (decimal whole fraction e))), rest) := by
  have hSplit := splitWhole?_append hWhole hTail
  have hExponent := splitExponent?_writeExponent .standard e hRest.isDigit
  simp only [scanNumber?, hSplit, hFraction, hExponent, Option.bind_eq_bind, Option.bind_some]

/-- The decimal of digits that are those of a reduced decimal, with zeros at the end. -/
theorem decimal_eq {d : Decimal} (h : d.IsReduced) {whole fraction : Text} {exponent : Int}
    (n : Nat) (hValue : Text.digitsValue (whole ++ fraction) = d.digits * 10 ^ n)
    (hExponent : exponent - fraction.length = d.exponent - n) :
    decimal whole fraction exponent = d := by
  rw [decimal, hValue, hExponent, h.reduce_mul_pow]

/-! ## Layouts -/

section Layouts

variable {d : Decimal} (h : d.IsReduced) (hNonzero : d.digits ≠ 0)
variable {rest : Text} (hRest : Stops rest)

theorem length_digits_pos (n : Nat) : 0 < (Text.ofNat n).length :=
  List.length_pos_iff.mpr (Text.ofNat_ne_nil n)

theorem isDigit_of_mem_replicate {n : Nat} {p : CodePoint}
    (hp : p ∈ List.replicate n (CodePoint.scalar '0')) : p.isDigit = true := by
  rw [List.eq_of_mem_replicate hp]
  rfl

include h hRest

/-- All digits stand after the point, behind zeros. -/
theorem scanNumber?_fractional {n : Nat}
    (hExponent : d.exponent + (Text.ofNat d.digits).length = -(n : Int)) :
    scanNumber? negative (.scalar '0' :: .scalar '.' ::
        (List.replicate n (.scalar '0') ++ Text.ofNat d.digits ++ rest)) =
      some (.scalar (.float (Double.ofDecimal negative d)), rest) := by
  -- the zeros on both sides of the point add nothing to the value of the digits
  have hDecimal :
      decimal [.scalar '0'] (List.replicate n (.scalar '0') ++ Text.ofNat d.digits) 0 = d := by
    refine decimal_eq h 0 ?_ ?_
    · rw [Text.digitsValue_append, Text.digitsValue_append, Text.digitsValue_replicate_zero,
        Text.digitsValue_ofNat]
      show 0 * _ + (0 * _ + d.digits) = _
      ring
    · rw [List.length_append, List.length_replicate]
      omega
  have hDigits : ∀ p ∈ List.replicate n (CodePoint.scalar '0') ++ Text.ofNat d.digits,
      p.isDigit = true := by
    intro p hp
    rcases List.mem_append.mp hp with hZero | hDigit
    · exact isDigit_of_mem_replicate hZero
    · exact Text.isDigit_of_mem_ofNat hDigit
  have hScan := scanNumber?_point negative isWhole_zero hDigits
    (List.append_ne_nil_of_right_ne_nil _ (Text.ofNat_ne_nil _)) hRest
  rw [hDecimal] at hScan
  exact hScan

include hNonzero

/-- Digits, zeros behind them, and a zero after the point. -/
theorem scanNumber?_integral (hExponent : 0 ≤ d.exponent) :
    scanNumber? negative (Text.ofNat d.digits ++ List.replicate d.exponent.toNat (.scalar '0') ++
        .scalar '.' :: .scalar '0' :: rest) =
      some (.scalar (.float (Double.ofDecimal negative d)), rest) := by
  obtain ⟨n, hn⟩ := Int.eq_ofNat_of_zero_le hExponent
  rw [hn, Int.toNat_natCast]
  have hNonempty := Text.ofNat_ne_nil d.digits
  have hWhole : IsWhole (Text.ofNat d.digits ++ List.replicate n (.scalar '0')) := by
    refine ⟨fun p hp => ?_, List.append_ne_nil_of_left_ne_nil hNonempty _, .inr ?_⟩
    · rcases List.mem_append.mp hp with hDigit | hZero
      · exact Text.isDigit_of_mem_ofNat hDigit
      · exact isDigit_of_mem_replicate hZero
    · rw [List.head?_append_of_ne_nil _ hNonempty]
      exact Text.head_ofNat_ne_zero hNonzero
  -- each zero behind the digits is a factor of ten, and so is the one after the point
  have hDecimal :
      decimal (Text.ofNat d.digits ++ List.replicate n (.scalar '0')) [.scalar '0'] 0 = d := by
    refine decimal_eq h (n + 1) ?_ ?_
    · rw [Text.digitsValue_append, Text.digitsValue_append, Text.digitsValue_replicate_zero,
        Text.digitsValue_ofNat, List.length_replicate, List.length_singleton]
      show (d.digits * 10 ^ n + 0) * 10 ^ 1 + 0 = _
      ring
    · rw [hn, List.length_singleton]
      omega
  have hZero : ∀ p ∈ [CodePoint.scalar '0'], p.isDigit = true := by decide
  have hScan := scanNumber?_point negative hWhole hZero (by decide) hRest
  rw [hDecimal] at hScan
  exact hScan

/-- The point stands among the digits. -/
theorem scanNumber?_mixed {k : Nat} (hk : 0 < k)
    (hExponent : d.exponent + (Text.ofNat d.digits).length = k) (hNegative : d.exponent < 0) :
    scanNumber? negative ((Text.ofNat d.digits).take k ++
        .scalar '.' :: ((Text.ofNat d.digits).drop k ++ rest)) =
      some (.scalar (.float (Double.ofDecimal negative d)), rest) := by
  have hSplit := List.take_append_drop k (Text.ofNat d.digits)
  have hTake : (Text.ofNat d.digits).take k ≠ [] := by
    rw [Ne, List.take_eq_nil_iff]
    exact not_or.mpr ⟨Nat.ne_of_gt hk, Text.ofNat_ne_nil _⟩
  have hDrop : (Text.ofNat d.digits).drop k ≠ [] := by
    rw [Ne, List.drop_eq_nil_iff]
    omega
  -- the point moves the exponent by the digits behind it
  have hDecimal :
      decimal ((Text.ofNat d.digits).take k) ((Text.ofNat d.digits).drop k) 0 = d := by
    refine decimal_eq h 0 ?_ ?_
    · rw [hSplit, Text.digitsValue_ofNat, Nat.pow_zero, Nat.mul_one]
    · rw [List.length_drop]
      omega
  have hScan := scanNumber?_point negative
    (isWhole_of_append hNonzero hTake hSplit.symm)
    (fun p hp => Text.isDigit_of_mem_ofNat (List.mem_of_mem_drop hp)) hDrop hRest
  rw [hDecimal] at hScan
  exact hScan

/-- One digit, the others after the point if there are any, and an exponent. -/
theorem scanNumber?_scientific {p : CodePoint} {tail : Text}
    (hDigits : Text.ofNat d.digits = p :: tail) {point : Text}
    (hPoint : point = if tail = [] then [] else .scalar '.' :: tail) {e : Int}
    (hExponent : e = d.exponent + tail.length) :
    scanNumber? negative (p :: (point ++ (Layout.standard.writeExponent e ++ rest))) =
      some (.scalar (.float (Double.ofDecimal negative d)), rest) := by
  have hWhole : IsWhole [p] := isWhole_of_append hNonzero (List.cons_ne_nil _ _) hDigits
  have hDecimal : decimal [p] tail e = d := by
    refine decimal_eq h 0 ?_ ?_
    · rw [List.singleton_append, ← hDigits, Text.digitsValue_ofNat, Nat.pow_zero, Nat.mul_one]
    · omega
  have hLetter : ∀ q, (Layout.standard.writeExponent e ++ rest).head? = some q →
      q.isDigit = false := by
    rintro q ⟨rfl⟩
    rfl
  -- whether or not there is a point, what is left is the exponent
  have hFraction : splitFraction (point ++ (Layout.standard.writeExponent e ++ rest)) =
      (tail, Layout.standard.writeExponent e ++ rest) := by
    rw [hPoint]
    split
    · next hNil =>
      subst hNil
      have hHead : some (CodePoint.scalar 'e') ≠ some (.scalar '.') := by decide
      exact splitFraction_of_head_ne hHead
    · next hNonempty =>
      refine splitFraction_point (fun q hq => ?_) hNonempty hLetter
      exact Text.isDigit_of_mem_ofNat (hDigits ▸ List.mem_cons_of_mem _ hq)
  have hTail : ∀ q, (point ++ (Layout.standard.writeExponent e ++ rest)).head? = some q →
      q.isDigit = false := by
    rw [hPoint]
    split
    · exact hLetter
    · rintro q ⟨rfl⟩
      rfl
  have hScan := scanNumber?_exponent negative hWhole hFraction hTail hRest
  rw [hDecimal] at hScan
  exact hScan

end Layouts

/-- A reduced decimal is scanned, in whatever layout it has, as the double that is nearest to it. -/
theorem scanNumber?_write {d : Decimal} (h : d.IsReduced) {rest : Text} (hRest : Stops rest) :
    scanNumber? negative (Layout.standard.write d ++ rest) =
      some (.scalar (.float (Double.ofDecimal negative d)), rest) := by
  by_cases hNonzero : d.digits = 0
  · -- zero has one layout
    have hZero : d = ⟨0, 0⟩ := by
      rcases h with hZero | hLast
      · exact hZero
      · exact absurd (by rw [hNonzero]) hLast
    subst hZero
    have hDecimal : decimal [.scalar '0'] [.scalar '0'] 0 = ⟨0, 0⟩ := Decimal.reduce_zero _
    have hDigits : ∀ p ∈ [CodePoint.scalar '0'], p.isDigit = true := by decide
    have hScan := scanNumber?_point negative isWhole_zero hDigits (by decide) hRest
    rw [hDecimal] at hScan
    exact hScan
  have hLength := length_digits_pos d.digits
  unfold Layout.write
  simp only [if_neg hNonzero]
  -- the layout goes by the place of the point, which without an exponent stands behind all digits,
  -- among them or before them
  split
  · split
    · next hExponent =>
      rw [Text.append_string, List.append_assoc _ _ rest]
      exact scanNumber?_integral negative h hNonzero hRest hExponent
    · next hExponent =>
      split
      · next hOrder =>
        have hk : d.exponent + (Text.ofNat d.digits).length =
            ((d.exponent + (Text.ofNat d.digits).length - 1 + 1).toNat : Int) := by omega
        rw [Text.append_string, List.append_assoc, List.append_assoc]
        exact scanNumber?_mixed negative h hNonzero hRest (by omega) hk (by omega)
      · next hOrder =>
        have hn : d.exponent + (Text.ofNat d.digits).length =
            -((-(d.exponent + (Text.ofNat d.digits).length - 1) - 1).toNat : Int) := by omega
        exact scanNumber?_fractional negative h hRest hn
  · -- an exponent: the digits are taken apart after the first
    cases hDigits : Text.ofNat d.digits with
    | nil => exact absurd hDigits (Text.ofNat_ne_nil _)
    | cons p tail =>
      have hOrder : d.exponent + ((p :: tail).length : Int) - 1 = d.exponent + tail.length := by
        rw [List.length_cons]
        omega
      cases tail with
      | nil =>
        have hPoint : ([] : Text) = if ([] : Text) = [] then [] else [.scalar '.'] := rfl
        exact scanNumber?_scientific negative h hNonzero hRest hDigits hPoint hOrder
      | cons q tail =>
        have hPoint : CodePoint.scalar '.' :: q :: tail =
            if q :: tail = [] then [] else .scalar '.' :: q :: tail := rfl
        have hScan := scanNumber?_scientific negative h hNonzero hRest hDigits hPoint
          hOrder
        rw [← List.append_assoc] at hScan
        exact hScan

/-! ## Tokens -/

/-- A spelling that is scanned as a token, with the rest left over. -/
def Scans (w : Text) (token : Token) (rest : Text) : Prop :=
  ∃ p u, w = p :: u ∧ isGap p = false ∧ scanToken p (u ++ rest) = (token, rest)

theorem Scans.scan {w : Text} {token : Token} {rest : Text} (h : Scans w token rest) :
    scan (w ++ rest) = ⟨token, w ++ rest⟩ :: Lexeme.scan rest := by
  obtain ⟨p, u, rfl, hGap, hToken⟩ := h
  rw [List.cons_append, Lexeme.scan, hGap, hToken]
  rfl

theorem scanWord?_eq_none {t : Text} (h : ∀ m ∈ words, ¬ m.1 <+: t) : scanWord? t = none := by
  rw [scanWord?, List.findSome?_eq_none_iff]
  intro m hm
  exact if_neg fun hPrefix => h m hm (List.isPrefixOf_iff_prefix.mp hPrefix)

theorem head?_of_isPrefix {w t : Text} {p : CodePoint} (hNonempty : w ≠ []) (h : w <+: p :: t) :
    w.head? = some p := by
  obtain ⟨q, w, rfl⟩ := List.exists_cons_of_ne_nil hNonempty
  rw [(List.cons_prefix_cons.mp h).1]
  rfl

/-- No word begins with a digit. -/
theorem scanWord?_digit {p : CodePoint} (hp : p.isDigit = true) (t : Text) :
    scanWord? (p :: t) = none := by
  have hWords : ∀ m ∈ words, m.1 ≠ [] ∧ m.1.head?.map CodePoint.isDigit = some false := by decide
  refine scanWord?_eq_none fun m hm hPrefix => ?_
  obtain ⟨hNonempty, hHead⟩ := hWords m hm
  rw [head?_of_isPrefix hNonempty hPrefix, Option.map_some, hp] at hHead
  cases hHead

/-- No word begins with a minus sign and a digit. -/
theorem scanWord?_minus {p : CodePoint} (hp : p.isDigit = true) (t : Text) :
    scanWord? (.scalar '-' :: p :: t) = none := by
  have hWords : ∀ m ∈ words, (m.1.drop 1) ≠ [] ∧
      (m.1.drop 1).head?.map CodePoint.isDigit = some false := by decide
  refine scanWord?_eq_none fun m hm hPrefix => ?_
  obtain ⟨hNonempty, hHead⟩ := hWords m hm
  have hRest : m.1.drop 1 <+: p :: t := hPrefix.drop 1
  rw [head?_of_isPrefix hNonempty hRest, Option.map_some, hp] at hHead
  cases hHead

/-- What begins with a digit or a minus sign is no bracket, no separator and no text. -/
theorem scanToken_of_scanScalar? {p : CodePoint} (hp : p.isDigit = true ∨ p = .scalar '-')
    {t : Text} {found : Token × Text} (h : scanScalar? (p :: t) = some found) :
    scanToken p t = found := by
  unfold scanToken
  split
  case h_8 => rw [h]
  all_goals exact absurd hp (by decide)

/-- What begins with a digit is scanned as a number. -/
theorem scanToken_digit {p : CodePoint} (hp : p.isDigit = true) {t rest : Text} {token : Token}
    (h : scanNumber? false (p :: t) = some (token, rest)) : scanToken p t = (token, rest) := by
  have hMinus : p ≠ .scalar '-' := by
    rintro rfl
    cases hp
  have hScan : scanScalar? (p :: t) = some (token, rest) := by
    unfold scanScalar?
    rw [scanWord?_digit hp]
    dsimp only
    split
    · next hEq => exact absurd (List.cons.inj hEq).1 hMinus
    · exact h
  exact scanToken_of_scanScalar? (.inl hp) hScan

/-- What begins with a minus sign and a digit is scanned as a number. -/
theorem scanToken_minus {p : CodePoint} (hp : p.isDigit = true) {t rest : Text} {token : Token}
    (h : scanNumber? true (p :: t) = some (token, rest)) :
    scanToken (.scalar '-') (p :: t) = (token, rest) := by
  have hScan : scanScalar? (.scalar '-' :: p :: t) = some (token, rest) := by
    rw [scanScalar?, scanWord?_minus hp]
    exact h
  exact scanToken_of_scanScalar? (.inr rfl) hScan

theorem isGap_of_isDigit {p : CodePoint} (hp : p.isDigit = true) : isGap p = false := by
  cases hGap : isGap p with
  | false => rfl
  | true =>
    simp only [isGap, Bool.or_eq_true, beq_iff_eq] at hGap
    obtain ((rfl | rfl) | rfl) | rfl := hGap <;> cases hp

/-- What is scanned as a number begins with a digit. -/
theorem head_of_scanNumber? {negative : Bool} {t rest : Text} {token : Token}
    (h : scanNumber? negative t = some (token, rest)) :
    ∃ p u, t = p :: u ∧ p.isDigit = true := by
  unfold scanNumber? at h
  simp only [Option.bind_eq_bind, Option.bind_eq_some_iff] at h
  obtain ⟨⟨whole, tail⟩, hWhole, -⟩ := h
  unfold splitWhole? at hWhole
  split at hWhole
  · exact ⟨_, _, rfl, rfl⟩
  · cases t with
    | nil => cases hWhole
    | cons p u =>
      refine ⟨p, u, rfl, ?_⟩
      by_contra hp
      simp [splitDigits, hp] at hWhole

/-- What is scanned as a number is a token, also after a minus sign. -/
theorem scans_of_scanNumber? {negative : Bool} {w rest : Text} {token : Token} (hRest : Stops rest)
    (h : scanNumber? negative (w ++ rest) = some (token, rest)) :
    Scans (Double.signText negative ++ w) token rest := by
  obtain ⟨p, u, hEq, hp⟩ := head_of_scanNumber? h
  cases w with
  | nil =>
    -- what follows a value does not begin with a digit
    rw [List.nil_append] at hEq
    rw [hRest.isDigit p (by rw [hEq]; rfl)] at hp
    cases hp
  | cons q w =>
    obtain rfl := (List.cons.inj hEq).1
    cases negative with
    | false => exact ⟨q, w, rfl, isGap_of_isDigit hp, scanToken_digit hp h⟩
    | true => exact ⟨.scalar '-', q :: w, rfl, rfl, scanToken_minus hp h⟩

/-- A printed integer is a token, which cannot be read if there are too many digits. -/
theorem scans_ofInt (n : Int) {rest : Text} (hRest : Stops rest) :
    Scans (Text.ofInt n) (if decimalLength n.natAbs ≤ Numeral.digitLimit then .scalar (.int n)
      else .badScalar (.tooManyDigits (decimalLength n.natAbs))) rest := by
  cases n with
  | ofNat n => exact scans_of_scanNumber? hRest (scanNumber?_ofNat false n hRest)
  | negSucc n => exact scans_of_scanNumber? hRest (scanNumber?_ofNat true (n + 1) hRest)

/-- A printed double is a token. -/
theorem scans_printDouble (x : Double) {rest : Text} (hRest : Stops rest) :
    Scans (printDouble x) (.scalar (.float x)) rest := by
  cases x with
  | nan => exact ⟨.scalar 'N', _, rfl, rfl, rfl⟩
  | infinite negative =>
    cases negative with
    | false => exact ⟨.scalar 'I', _, rfl, rfl, rfl⟩
    | true => exact ⟨.scalar '-', _, rfl, rfl, rfl⟩
  | finite negative m e h =>
    have hScan := scanNumber?_write negative (Double.isReduced_shortest m e) hRest
    rw [Double.ofDecimal_shortest h] at hScan
    exact scans_of_scanNumber? hRest hScan

end OscMonitor.Lexeme
