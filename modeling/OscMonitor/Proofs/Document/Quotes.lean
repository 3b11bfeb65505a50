import Mathlib.Data.List.Chain
import OscMonitor.Document.Printer
import OscMonitor.Proofs.Document.Extent

/-!
# Texts that are read back

A text that is printed between quotes is scanned as the same text, provided that no high half of a
surrogate pair stands right before a low one: two such halves would be scanned as one character. In
what is scanned from characters alone no two halves stand like that, since the scanner has joined
them already.

* `Text.Joined` — no high half stands right before a low one.
* `scanText_print` — a joined text is read back from between its quotes.
* `joined_of_scanText` — what is scanned from characters is joined.
-/

namespace OscMonitor

/-! ## Halves of surrogate pairs -/

namespace CodePoint

def isHighHalf : CodePoint → Bool
  | scalar _ => false
  | surrogate offset => offset.val < 0x400

def isLowHalf : CodePoint → Bool
  | scalar _ => false
  | surrogate offset => 0x400 ≤ offset.val

theorem ofNumber_number (p : CodePoint) : ofNumber p.number = p := by
  cases p with
  | scalar c =>
    have hValid : ¬ (0xD800 ≤ c.toNat ∧ c.toNat < 0xE000) := by
      have hc : c.toNat.isValidChar := c.valid
      unfold Nat.isValidChar at hc
      omega
    rw [ofNumber, number, dif_neg hValid, Char.ofNat_toNat]
  | surrogate offset =>
    have hOffset : 0xD800 ≤ 0xD800 + offset.val ∧ 0xD800 + offset.val < 0xE000 := by omega
    rw [ofNumber, number, dif_pos hOffset]
    simp

theorem isHighHalf_iff {p : CodePoint} :
    p.isHighHalf = true ↔ 0xD800 ≤ p.number ∧ p.number < 0xDC00 := by
  cases p with
  | scalar c =>
    have hc : c.toNat.isValidChar := c.valid
    unfold Nat.isValidChar at hc
    simp only [isHighHalf, number, Bool.false_eq_true, false_iff]
    omega
  | surrogate offset =>
    simp only [isHighHalf, number, decide_eq_true_eq]
    omega

theorem isLowHalf_iff {p : CodePoint} :
    p.isLowHalf = true ↔ 0xDC00 ≤ p.number ∧ p.number < 0xE000 := by
  cases p with
  | scalar c =>
    have hc : c.toNat.isValidChar := c.valid
    unfold Nat.isValidChar at hc
    simp only [isLowHalf, number, Bool.false_eq_true, false_iff]
    omega
  | surrogate offset =>
    simp only [isLowHalf, number, decide_eq_true_eq]
    omega

theorem isHighHalf_ofNumber (n : Nat) :
    (ofNumber n).isHighHalf = true ↔ 0xD800 ≤ n ∧ n < 0xDC00 := by
  unfold ofNumber
  split
  · simp only [isHighHalf, decide_eq_true_eq]
    omega
  · simp only [isHighHalf, Bool.false_eq_true, false_iff]
    omega

theorem isLowHalf_ofNumber (n : Nat) :
    (ofNumber n).isLowHalf = true ↔ 0xDC00 ≤ n ∧ n < 0xE000 := by
  unfold ofNumber
  split
  · simp only [isLowHalf, decide_eq_true_eq]
    omega
  · simp only [isLowHalf, Bool.false_eq_true, false_iff]
    omega

end CodePoint

/-- No high half of a surrogate pair stands right before a low one. -/
def Text.Joined (t : Text) : Prop :=
  t.IsChain fun p q => ¬ (p.isHighHalf = true ∧ q.isLowHalf = true)

namespace Lexeme

/-! ## Steps of the scanner -/

section Steps

variable (start read : Text)

theorem scanText_quote (rest : Text) :
    scanText start read (.scalar '"' :: rest) = .ok (read.reverse, rest) := by
  rw [scanText.eq_def]
  exact if_pos rfl

theorem scanText_plain {p : CodePoint} (hQuote : p ≠ .scalar '"') (hBackslash : p ≠ .scalar '\\')
    (hControl : 0x20 ≤ p.number) (rest : Text) :
    scanText start read (p :: rest) = scanText start (p :: read) rest := by
  rw [scanText.eq_def]
  dsimp only
  rw [if_neg hQuote, if_neg hBackslash, if_neg (Nat.not_lt.mpr hControl)]

theorem scanText_escape {p q : CodePoint} {t rest : Text} (h : escape p t = .ok (q, rest)) :
    scanText start read (.scalar '\\' :: p :: t) = scanText start (q :: read) rest := by
  rw [scanText.eq_def]
  dsimp only
  rw [if_neg (by decide), if_pos rfl]
  split
  · next hEscape =>
    rw [h] at hEscape
    obtain ⟨rfl, rfl⟩ := Prod.mk.inj (Except.ok.inj hEscape)
    rfl
  · next hEscape =>
    rw [h] at hEscape
    cases hEscape

end Steps

/-! ## Escapes -/

/-- The digits of an escape. -/
def unitDigits (n : Nat) : Text := (escapeUnit n).drop 2

theorem escapeUnit_eq (n : Nat) :
    escapeUnit n = .scalar '\\' :: .scalar 'u' :: unitDigits n := rfl

theorem hexQuad?_unitDigits {n : Nat} (hn : n < 0x10000) :
    ∃ a b c d, unitDigits n = [a, b, c, d] ∧ hexQuad? a b c d = some n := by
  have hDigit : ∀ d < 16, (CodePoint.scalar (Nat.digitChar d)).hexDigit? = some d := by decide
  refine ⟨_, _, _, _, rfl, ?_⟩
  unfold hexQuad?
  rw [hDigit _ (Nat.mod_lt _ (by decide)), hDigit _ (Nat.mod_lt _ (by decide)),
    hDigit _ (Nat.mod_lt _ (by decide)), hDigit _ (Nat.mod_lt _ (by decide))]
  show some _ = some n
  congr 1
  omega

/-- An escape that is no high half stands for its number. -/
theorem unicodeEscape_unit {n : Nat} (hn : n < 0x10000) (hHigh : ¬ (0xD800 ≤ n ∧ n < 0xDC00))
    (p : CodePoint) (rest : Text) :
    unicodeEscape (unitDigits n ++ p :: rest) = .ok (.ofNumber n, p :: rest) := by
  obtain ⟨a, b, c, d, hDigits, hQuad⟩ := hexQuad?_unitDigits hn
  rw [hDigits]
  show unicodeEscape (a :: b :: c :: d :: p :: rest) = _
  simp only [unicodeEscape, hQuad, if_neg hHigh]

/-- A high half that no low one follows stands for itself. -/
theorem unicodeEscape_high {n : Nat} (hHigh : 0xD800 ≤ n ∧ n < 0xDC00) {p : CodePoint} {rest : Text}
    (hLow : lowHalf? (p :: rest) = none) :
    unicodeEscape (unitDigits n ++ p :: rest) = .ok (.ofNumber n, p :: rest) := by
  obtain ⟨a, b, c, d, hDigits, hQuad⟩ := hexQuad?_unitDigits (n := n) (by omega)
  rw [hDigits]
  show unicodeEscape (a :: b :: c :: d :: p :: rest) = _
  simp only [unicodeEscape, hQuad, if_pos hHigh, hLow]

theorem lowHalf?_unit {n : Nat} (hn : n < 0x10000) (p : CodePoint) (rest : Text) :
    lowHalf? (escapeUnit n ++ p :: rest) =
      if 0xDC00 ≤ n ∧ n < 0xE000 then some (n, p :: rest) else none := by
  obtain ⟨a, b, c, d, hDigits, hQuad⟩ := hexQuad?_unitDigits hn
  rw [escapeUnit_eq, hDigits]
  show lowHalf? (.scalar '\\' :: .scalar 'u' :: a :: b :: c :: d :: p :: rest) = _
  simp only [lowHalf?, hQuad, Option.bind_eq_bind, Option.bind_some]

/-- A high half takes the low half that follows it. -/
theorem unicodeEscape_pair {high low : Nat} (hHigh : 0xD800 ≤ high ∧ high < 0xDC00)
    (hLow : 0xDC00 ≤ low ∧ low < 0xE000) (p : CodePoint) (rest : Text) :
    unicodeEscape (unitDigits high ++ (escapeUnit low ++ p :: rest)) =
      .ok (joinHalves high low, p :: rest) := by
  have hLowHalf := lowHalf?_unit (n := low) (by omega) p rest
  rw [if_pos hLow] at hLowHalf
  obtain ⟨a, b, c, d, hDigits, hQuad⟩ := hexQuad?_unitDigits (n := high) (by omega)
  rw [hDigits]
  rw [escapeUnit_eq] at hLowHalf ⊢
  show unicodeEscape (a :: b :: c :: d :: .scalar '\\' :: .scalar 'u' ::
    (unitDigits low ++ p :: rest)) = _
  simp only [List.cons_append] at hLowHalf
  simp only [unicodeEscape, hQuad, if_pos hHigh, hLowHalf]

/-! ## Printed code points -/

/-- The shapes that a code point has between quotes: an escape of one letter, the code point itself,
an escape of its number, or escapes of the two halves of its surrogate pair. -/
inductive Printed : CodePoint → Text → Prop
  | letter {c : Char} {p : CodePoint} (hLetter : p ≠ .scalar 'u')
      (hEscape : simpleEscape? p = some c) : Printed (.scalar c) [.scalar '\\', p]
  | plain {p : CodePoint} (hQuote : p ≠ .scalar '"') (hBackslash : p ≠ .scalar '\\')
      (hControl : 0x20 ≤ p.number) (hAscii : p.number < 0x80) : Printed p [p]
  | unit {p : CodePoint} (hNumber : p.number < 0x10000) : Printed p (escapeUnit p.number)
  | pair {p : CodePoint} {n : Nat} (hNumber : p.number = 0x10000 + n) (hn : n < 0x100000) :
      Printed p (escapeUnit (0xD800 + n / 0x400) ++ escapeUnit (0xDC00 + n % 0x400))

theorem printed_printPoint (p : CodePoint) : Printed p (printPoint p) := by
  cases p with
  | surrogate offset =>
    have hNumber : (CodePoint.surrogate offset).number < 0x10000 := by
      simp only [CodePoint.number]
      omega
    exact .unit hNumber
  | scalar c =>
    -- the seven letters come first
    unfold printPoint
    dsimp only
    split
    · next h => exact h ▸ .letter (p := .scalar '"') (by decide) rfl
    split
    · next h => exact h ▸ .letter (p := .scalar '\\') (by decide) rfl
    split
    · next h => exact h ▸ .letter (p := .scalar 'n') (by decide) rfl
    split
    · next h => exact h ▸ .letter (p := .scalar 'r') (by decide) rfl
    split
    · next h => exact h ▸ .letter (p := .scalar 't') (by decide) rfl
    split
    · next h => exact h ▸ .letter (p := .scalar 'f') (by decide) rfl
    split
    · next h => exact h ▸ .letter (p := .scalar 'b') (by decide) rfl
    next hQuote hBackslash _ _ _ _ _ =>
    split
    · next h =>
      -- printable ASCII stands for itself
      have hControl : 0x20 ≤ (CodePoint.scalar c).number := h.1
      have hAscii : (CodePoint.scalar c).number ≤ 0x7E := h.2
      refine .plain (fun hEq => hQuote ?_) (fun hEq => hBackslash ?_) hControl (by omega)
      · exact CodePoint.scalar.inj hEq
      · exact CodePoint.scalar.inj hEq
    split
    · next h => exact .unit (p := .scalar c) h
    · next h =>
      have hc : c.toNat.isValidChar := c.valid
      unfold Nat.isValidChar at hc
      have hNumber : (CodePoint.scalar c).number = 0x10000 + (c.toNat - 0x10000) := by
        simp only [CodePoint.number]
        omega
      exact .pair hNumber (by omega)

/-! ## Texts between quotes -/

/-- What is printed of a text that does not begin with a low half does not begin with one either. -/
theorem lowHalf?_print {t : Text} (h : ∀ p, t.head? = some p → p.isLowHalf = false) (rest : Text) :
    lowHalf? (t.flatMap printPoint ++ .scalar '"' :: rest) = none := by
  cases t with
  | nil => rfl
  | cons p t =>
    obtain ⟨q, tail, hTail⟩ : ∃ q tail, t.flatMap printPoint ++ .scalar '"' :: rest = q :: tail :=
      List.exists_cons_of_ne_nil (List.append_ne_nil_of_right_ne_nil _ (List.cons_ne_nil _ _))
    have hLow : ¬ (0xDC00 ≤ p.number ∧ p.number < 0xE000) := by
      rw [← CodePoint.isLowHalf_iff, h p rfl]
      decide
    rw [List.flatMap_cons, List.append_assoc, hTail]
    have hPrinted := printed_printPoint p
    generalize printPoint p = w at hPrinted
    cases hPrinted with
    | letter hLetter _ =>
      -- the letter is not that of an escape by number
      unfold lowHalf?
      split
      · next hEq => exact absurd (List.cons.inj (List.cons.inj hEq).2).1 hLetter
      · rfl
    | plain hQuote hBackslash _ _ =>
      unfold lowHalf?
      split
      · next hEq => exact absurd (List.cons.inj hEq).1 hBackslash
      · rfl
    | unit hNumber => rw [lowHalf?_unit hNumber, if_neg hLow]
    | @pair p n hNumber hn =>
      -- the first half of a pair is a high one
      have hFirst : ¬ (0xDC00 ≤ 0xD800 + n / 0x400 ∧ 0xD800 + n / 0x400 < 0xE000) := by omega
      rw [List.append_assoc, escapeUnit_eq (0xDC00 + n % 0x400), List.cons_append,
        lowHalf?_unit (by omega), if_neg hFirst]

/-- A joined text is read back from between its quotes. -/
theorem scanText_print {t : Text} (h : t.Joined) (start read rest : Text) :
    scanText start read (t.flatMap printPoint ++ .scalar '"' :: rest) =
      .ok (read.reverse ++ t, rest) := by
  induction t generalizing read with
  | nil =>
    rw [List.flatMap_nil, List.nil_append, scanText_quote, List.append_nil]
  | cons p t ih =>
    obtain ⟨hHead, hTail⟩ := List.isChain_cons.mp h
    -- after `p` the scanner goes on with the rest of the text
    have hNext := ih hTail (p :: read)
    rw [List.reverse_cons, List.append_assoc, List.singleton_append] at hNext
    rw [List.flatMap_cons, List.append_assoc, ← hNext]
    have hHigh : p.isHighHalf = true →
        lowHalf? (t.flatMap printPoint ++ .scalar '"' :: rest) = none := by
      intro hp
      refine lowHalf?_print (fun q hq => ?_) rest
      have hNot := hHead q hq
      simpa [hp] using hNot
    obtain ⟨q, tail, hAfter⟩ : ∃ q tail, t.flatMap printPoint ++ .scalar '"' :: rest = q :: tail :=
      List.exists_cons_of_ne_nil (List.append_ne_nil_of_right_ne_nil _ (List.cons_ne_nil _ _))
    rw [hAfter] at hHigh ⊢
    have hPrinted := printed_printPoint p
    generalize printPoint p = w at hPrinted
    cases hPrinted with
    | @letter c letter hLetter hEscape =>
      have hSimple : escape letter (q :: tail) = .ok (.scalar c, q :: tail) := by
        rw [escape, if_neg hLetter, hEscape]
      exact scanText_escape start read hSimple
    | plain hQuote hBackslash hControl _ =>
      exact scanText_plain start read hQuote hBackslash hControl _
    | unit hNumber =>
      have hEscape : escape (.scalar 'u') (unitDigits p.number ++ q :: tail) =
          .ok (p, q :: tail) := by
        rw [escape, if_pos rfl]
        by_cases hp : p.isHighHalf = true
        · rw [unicodeEscape_high (CodePoint.isHighHalf_iff.mp hp) (hHigh hp),
            CodePoint.ofNumber_number]
        · rw [unicodeEscape_unit hNumber (mt CodePoint.isHighHalf_iff.mpr hp),
            CodePoint.ofNumber_number]
      exact scanText_escape start read hEscape
    | @pair _ n hNumber hn =>
      have hJoin : joinHalves (0xD800 + n / 0x400) (0xDC00 + n % 0x400) = p := by
        have hSum : 0x10000 + (0xD800 + n / 0x400 - 0xD800) * 0x400 +
            (0xDC00 + n % 0x400 - 0xDC00) = p.number := by omega
        rw [joinHalves, hSum, CodePoint.ofNumber_number]
      have hEscape : escape (.scalar 'u') (unitDigits (0xD800 + n / 0x400) ++
          (escapeUnit (0xDC00 + n % 0x400) ++ q :: tail)) = .ok (p, q :: tail) := by
        rw [escape, if_pos rfl, unicodeEscape_pair (by omega) (by omega), hJoin]
      rw [List.append_assoc]
      exact scanText_escape start read hEscape

/-! ## Scanned texts -/

/-- A low half that is scanned would have been taken by a high half before it. -/
theorem lowHalf?_of_escape {p q : CodePoint} {t rest : Text} (h : escape p t = .ok (q, rest))
    (hq : q.isLowHalf = true) : ∃ n, lowHalf? (.scalar '\\' :: p :: t) = some (n, rest) := by
  unfold escape at h
  split at h
  · next hLetter =>
    subst hLetter
    unfold unicodeEscape at h
    split at h
    · split at h
      · cases h
      · next n hQuad =>
        split at h
        · next hHigh =>
          -- neither a high half nor a pair is a low half
          split at h
          · next low tail hLow =>
            obtain ⟨rfl, -⟩ := Prod.mk.inj (Except.ok.inj h)
            rw [joinHalves, CodePoint.isLowHalf_ofNumber] at hq
            omega
          · obtain ⟨rfl, -⟩ := Prod.mk.inj (Except.ok.inj h)
            rw [CodePoint.isLowHalf_ofNumber] at hq
            omega
        · obtain ⟨rfl, rfl⟩ := Prod.mk.inj (Except.ok.inj h)
          rw [CodePoint.isLowHalf_ofNumber] at hq
          refine ⟨n, ?_⟩
          simp only [lowHalf?, hQuad, Option.bind_eq_bind, Option.bind_some, if_pos hq]
    · cases h
  · split at h
    · obtain ⟨rfl, -⟩ := Prod.mk.inj (Except.ok.inj h)
      cases hq
    · cases h

/-- A high half that is scanned has no low half after it. -/
theorem lowHalf?_after_escape {p q : CodePoint} {t rest : Text} (h : escape p t = .ok (q, rest))
    (hq : q.isHighHalf = true) : lowHalf? rest = none := by
  unfold escape at h
  split at h
  · unfold unicodeEscape at h
    split at h
    · split at h
      · cases h
      · split at h
        · split at h
          · obtain ⟨rfl, -⟩ := Prod.mk.inj (Except.ok.inj h)
            rw [joinHalves, CodePoint.isHighHalf_ofNumber] at hq
            omega
          · next hLow =>
            obtain ⟨-, rfl⟩ := Prod.mk.inj (Except.ok.inj h)
            exact hLow
        · next hHigh =>
          obtain ⟨rfl, -⟩ := Prod.mk.inj (Except.ok.inj h)
          rw [CodePoint.isHighHalf_ofNumber] at hq
          exact absurd hq hHigh
    · cases h
  · split at h
    · obtain ⟨rfl, -⟩ := Prod.mk.inj (Except.ok.inj h)
      cases hq
    · cases h

theorem joined_concat {read : Text} {q : CodePoint} (hRead : Text.Joined read.reverse)
    (h : ∀ p, read.head? = some p → p.isHighHalf = true → q.isLowHalf = false) :
    Text.Joined (q :: read).reverse := by
  rw [List.reverse_cons]
  refine List.isChain_append.mpr ⟨hRead, .singleton q, fun p hp q' hq' => ?_⟩
  obtain rfl : q = q' := Option.some.inj hq'
  rw [List.getLast?_reverse] at hp
  rintro ⟨hHigh, hLow⟩
  rw [h p hp hHigh] at hLow
  cases hLow

/-- What is scanned from characters is joined, as a half that stands alone ends in a place where no
low half follows. -/
theorem joined_of_scanText {start read t r rest : Text} (hScalar : ∀ p ∈ t, p.isScalar = true)
    (hRead : Text.Joined read.reverse)
    (hLast : ∀ p, read.head? = some p → p.isHighHalf = true → lowHalf? t = none)
    (h : scanText start read t = .ok (r, rest)) : r.Joined := by
  fun_induction scanText start read t with
  | case1 => cases h
  | case2 =>
    obtain ⟨rfl, -⟩ := Prod.mk.inj (Except.ok.inj h)
    exact hRead
  | case3 => cases h
  | case4 read p rest' q rest'' hEscape hQuote ih =>
    obtain ⟨-, w, rfl, -⟩ := escape_tail hEscape
    refine ih (fun p hp => hScalar p ?_) (joined_concat hRead fun p' hp' hHigh => ?_) ?_ h
    · exact List.mem_cons_of_mem _ (List.mem_cons_of_mem _ (List.mem_append_right _ hp))
    · -- a low half here would have been taken by the high one before
      cases hq : q.isLowHalf with
      | false => rfl
      | true =>
        obtain ⟨n, hLow⟩ := lowHalf?_of_escape hEscape hq
        rw [hLast p' hp' hHigh] at hLow
        cases hLow
    · rintro p' ⟨rfl⟩ hHigh
      exact lowHalf?_after_escape hEscape hHigh
  | case5 => cases h
  | case6 => cases h
  | case7 read p rest' hQuote hBackslash hControl ih =>
    -- a character is neither half
    have hp := hScalar p List.mem_cons_self
    have hNot : p.isLowHalf = false ∧ p.isHighHalf = false := by
      cases p with
      | scalar c => exact ⟨rfl, rfl⟩
      | surrogate offset => cases hp
    refine ih (fun q hq => hScalar q (List.mem_cons_of_mem _ hq))
      (joined_concat hRead fun _ _ _ => hNot.1) ?_ h
    rintro p' ⟨rfl⟩ hHigh
    rw [hNot.2] at hHigh
    cases hHigh

end Lexeme

end OscMonitor
