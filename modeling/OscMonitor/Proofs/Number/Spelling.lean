import OscMonitor.Proofs.Number.Digits
import OscMonitor.Text.Blank

/-!
# Spellings of integers

Two grammars of integers in text. The numerals that everybody writes have one sign, digits with
single underscores between them, and at most a fraction of zeros; white space may stand around them.
The texts that are read as integers are these and two more kinds: among the zeros in front
underscores may stand as they like, and the minus sign may come after these zeros instead of before
them. In both grammars a text has digits that count, and the number is the value of these digits.

Main results:

* `Grouped`, `Usual`, `Spells` — groups of digits, and the two grammars.
* `Usual.spells` — every usual numeral spells its number.
* `usual_ofInt` — the digits of an integer are a usual numeral of it.
-/

namespace OscMonitor.Numeral

/-! ## The grammars -/

/-- A sign, which may be missing; true is minus. -/
inductive Sign : Text → Bool → Prop where
  | none : Sign [] false
  | plus : Sign [.scalar '+'] false
  | minus : Sign [.scalar '-'] true

/-- Digits with at most one underscore between neighbours, and the digits alone. -/
inductive Grouped : Text → Text → Prop where
  | last {p : CodePoint} (h : p.isDigit = true) : Grouped [p] [p]
  | digit {p : CodePoint} {t digits : Text} (h : p.isDigit = true) (rest : Grouped t digits) :
    Grouped (p :: t) (p :: digits)
  | underscore {p : CodePoint} {t digits : Text} (h : p.isDigit = true) (rest : Grouped t digits) :
    Grouped (p :: .scalar '_' :: t) (p :: digits)

/-- No fraction, or a fraction of zeros. -/
inductive ZeroFraction : Text → Prop where
  | none : ZeroFraction []
  | zeros (n : Nat) : ZeroFraction (.scalar '.' :: List.replicate (n + 1) (.scalar '0'))

/-- A zero or an underscore. -/
def IsFiller (p : CodePoint) : Prop := p = .scalar '0' ∨ p = .scalar '_'

/-- Zeros in front, with underscores among them as they like, but none before the first zero. -/
inductive Front : Text → Prop where
  | none : Front []
  | zeros {t : Text} (h : ∀ p ∈ t, IsFiller p) : Front (.scalar '0' :: t)

/-- A zero is only first when it is all there is. -/
def Needful (digits : Text) : Prop := digits.head? = some (.scalar '0') → digits = [.scalar '0']

/-- An underscore, which may be missing. -/
def MaybeUnderscore (t : Text) : Prop := t = [] ∨ t = [.scalar '_']

/-- A whole number as it is commonly written: a sign and digits. -/
inductive Signed : Text → Bool → Text → Prop where
  | mk {sign t digits : Text} {negative : Bool} (hSign : Sign sign negative)
    (hGrouped : Grouped t digits) : Signed (sign ++ t) negative digits

/-- A whole number as it is read: zeros may stand in front of the digits that count, and the minus
sign before or after them. -/
inductive Whole : Text → Bool → Text → Prop where
  | signAhead {sign zeros t digits : Text} {negative : Bool} (hSign : Sign sign negative)
    (hFront : Front zeros) (hGrouped : Grouped t digits) (hNeedful : Needful digits) :
    Whole (sign ++ (zeros ++ t)) negative digits
  | signBehind {sign zeros gap t digits : Text} (hSign : Sign sign false) (hFront : Front zeros)
    (hZeros : zeros ≠ []) (hGap : MaybeUnderscore gap) (hGrouped : Grouped t digits)
    (hNeedful : Needful digits) : Whole (sign ++ (zeros ++ .scalar '-' :: (gap ++ t))) true digits

/-- A whole number with white space around it and no fraction but zeros; and the integer that its
digits stand for. -/
inductive Framed (Part : Text → Bool → Text → Prop) : Text → Text → Int → Prop where
  | mk {before whole fraction after digits : Text} {negative : Bool}
    (hBefore : ∀ p ∈ before, Text.isWhiteSpace p = true) (hWhole : Part whole negative digits)
    (hFraction : ZeroFraction fraction) (hAfter : ∀ p ∈ after, Text.isWhiteSpace p = true) :
    Framed Part (before ++ (whole ++ fraction) ++ after) digits
      (signed negative (Text.digitsValue digits))

/-- The numerals that everybody writes. -/
def Usual : Text → Text → Int → Prop := Framed Signed

/-- The texts that are read. -/
def Spells : Text → Text → Int → Prop := Framed Whole

/-! ## Groups of digits -/

theorem Grouped.isDigit {t digits : Text} (h : Grouped t digits) :
    ∀ p ∈ digits, p.isDigit = true := by
  induction h with
  | last hp => exact List.forall_mem_singleton.mpr hp
  | digit hp _ ih => exact List.forall_mem_cons.mpr ⟨hp, ih⟩
  | underscore hp _ ih => exact List.forall_mem_cons.mpr ⟨hp, ih⟩

theorem Grouped.digits_ne_nil {t digits : Text} (h : Grouped t digits) : digits ≠ [] := by
  cases h <;> exact List.cons_ne_nil _ _

theorem Grouped.of_digits {digits : Text} (hDigits : ∀ p ∈ digits, p.isDigit = true)
    (hNonempty : digits ≠ []) : Grouped digits digits := by
  induction digits with
  | nil => exact absurd rfl hNonempty
  | cons p digits ih =>
    obtain ⟨hp, hDigits⟩ := List.forall_mem_cons.mp hDigits
    by_cases hLast : digits = []
    · subst hLast
      exact .last hp
    · exact .digit hp (ih hDigits hLast)

/-- A text of groups begins as its digits do. -/
theorem Grouped.head {t digits : Text} (h : Grouped t digits) : t.head? = digits.head? := by
  cases h <;> rfl

theorem Grouped.head_isDigit {t digits : Text} (h : Grouped t digits) :
    ∃ p rest, t = p :: rest ∧ p.isDigit = true := by
  cases h with
  | last hp => exact ⟨_, _, rfl, hp⟩
  | digit hp _ => exact ⟨_, _, rfl, hp⟩
  | underscore hp _ => exact ⟨_, _, rfl, hp⟩

theorem Grouped.mem {t digits : Text} (h : Grouped t digits) :
    ∀ p ∈ t, p.isDigit = true ∨ p = .scalar '_' := by
  induction h with
  | last hp => exact List.forall_mem_singleton.mpr (.inl hp)
  | digit hp _ ih => exact List.forall_mem_cons.mpr ⟨.inl hp, ih⟩
  | underscore hp _ ih =>
    exact List.forall_mem_cons.mpr ⟨.inl hp, List.forall_mem_cons.mpr ⟨.inr rfl, ih⟩⟩

theorem Grouped.not_mem {t digits : Text} (h : Grouped t digits) {p : CodePoint}
    (hDigit : p.isDigit = false) (hUnderscore : p ≠ .scalar '_') : p ∉ t := by
  intro hMem
  rcases h.mem p hMem with hTrue | rfl
  · rw [hTrue] at hDigit
    cases hDigit
  · exact hUnderscore rfl

theorem Front.head_isDigit {zeros t : Text} (hFront : Front zeros)
    (h : zeros = [] → ∀ p, t.head? = some p → p.isDigit = true) :
    ∀ p, (zeros ++ t).head? = some p → p.isDigit = true := by
  cases hFront with
  | none => exact h rfl
  | zeros =>
    rintro p ⟨⟩
    rfl

theorem Whole.grouped {t digits : Text} {negative : Bool} (h : Whole t negative digits) :
    ∃ t', Grouped t' digits ∧ Needful digits := by
  cases h with
  | signAhead _ _ hGrouped hNeedful => exact ⟨_, hGrouped, hNeedful⟩
  | signBehind _ _ _ _ hGrouped hNeedful => exact ⟨_, hGrouped, hNeedful⟩

theorem Needful.eq_of_zero {t digits : Text} (hGrouped : Grouped (.scalar '0' :: t) digits)
    (hNeedful : Needful digits) : t = [] := by
  have hOne := hNeedful (hGrouped.head.symm.trans rfl)
  subst hOne
  cases hGrouped with
  | last => rfl
  | digit _ hRest => exact absurd rfl hRest.digits_ne_nil
  | underscore _ hRest => exact absurd rfl hRest.digits_ne_nil

/-! ## Marks of a numeral -/

/-- A code point of a numeral: a digit, a sign, an underscore or a point. -/
def IsMark (p : CodePoint) : Prop :=
  p.isDigit = true ∨ p ∈ [CodePoint.scalar '+', .scalar '-', .scalar '_', .scalar '.']

theorem not_isWhiteSpace_of_isDigit {p : CodePoint} (h : p.isDigit = true) :
    Text.isWhiteSpace p = false := by
  obtain ⟨n, hn⟩ := Option.isSome_iff_exists.mp h
  obtain ⟨c, rfl, hc, hLt⟩ := CodePoint.digit?_eq_some_iff.mp hn
  simp only [Text.isWhiteSpace, CodePoint.number, hc, Bool.or_eq_false_iff, Bool.and_eq_false_iff,
    decide_eq_false_iff_not, beq_eq_false_iff_ne]
  omega

theorem IsMark.not_isWhiteSpace {p : CodePoint} (h : IsMark p) : Text.isWhiteSpace p = false := by
  rcases h with hDigit | hMem
  · exact not_isWhiteSpace_of_isDigit hDigit
  · revert p
    decide

theorem Sign.isMark {t : Text} {negative : Bool} (h : Sign t negative) : ∀ p ∈ t, IsMark p := by
  intro p hp
  cases h with
  | none => cases hp
  | plus =>
    obtain rfl := List.mem_singleton.mp hp
    exact .inr (by decide)
  | minus =>
    obtain rfl := List.mem_singleton.mp hp
    exact .inr (by decide)

theorem IsFiller.isMark {p : CodePoint} (h : IsFiller p) : IsMark p := by
  rcases h with rfl | rfl
  · exact .inl rfl
  · exact .inr (by decide)

theorem Front.isMark {t : Text} (h : Front t) : ∀ p ∈ t, IsMark p := by
  cases h with
  | none => exact nofun
  | zeros hZeros =>
    exact List.forall_mem_cons.mpr ⟨.inl rfl, fun p hp => (hZeros p hp).isMark⟩

theorem Grouped.isMark {t digits : Text} (h : Grouped t digits) : ∀ p ∈ t, IsMark p := by
  intro p hp
  rcases h.mem p hp with hDigit | rfl
  · exact .inl hDigit
  · exact .inr (by decide)

theorem MaybeUnderscore.isMark {t : Text} (h : MaybeUnderscore t) : ∀ p ∈ t, IsMark p := by
  rcases h with rfl | rfl
  · exact nofun
  · exact List.forall_mem_singleton.mpr (.inr (by decide))

theorem ZeroFraction.isMark {t : Text} (h : ZeroFraction t) : ∀ p ∈ t, IsMark p := by
  cases h with
  | none => exact nofun
  | zeros n =>
    refine List.forall_mem_cons.mpr ⟨.inr (by decide), fun p hp => ?_⟩
    rw [List.eq_of_mem_replicate hp]
    exact .inl rfl

theorem Whole.isMark {t digits : Text} {negative : Bool} (h : Whole t negative digits) :
    ∀ p ∈ t, IsMark p := by
  cases h with
  | signAhead hSign hFront hGrouped _ =>
    simp only [List.forall_mem_append]
    exact ⟨hSign.isMark, hFront.isMark, hGrouped.isMark⟩
  | signBehind hSign hFront _ hGap hGrouped _ =>
    simp only [List.forall_mem_append, List.forall_mem_cons]
    exact ⟨hSign.isMark, hFront.isMark, .inr (by decide), hGap.isMark, hGrouped.isMark⟩

/-! ## Usual numerals -/

/-- The zeros in front can be told from the digits that count. -/
theorem Grouped.exists_front {t digits : Text} (h : Grouped t digits) :
    ∃ zeros rest digits', Front zeros ∧ t = zeros ++ rest ∧ Grouped rest digits' ∧
      Needful digits' ∧ Text.digitsValue digits' = Text.digitsValue digits ∧
      digits'.length ≤ digits.length := by
  -- a first digit but zero counts, and so does all that follows it
  have hStays : ∀ {p : CodePoint} {t digits : Text}, p ≠ .scalar '0' →
      Grouped (p :: t) (p :: digits) → ∃ zeros rest digits', Front zeros ∧ p :: t = zeros ++ rest ∧
        Grouped rest digits' ∧ Needful digits' ∧
        Text.digitsValue digits' = Text.digitsValue (p :: digits) ∧
        digits'.length ≤ (p :: digits).length := by
    intro p t digits hZero hGrouped
    refine ⟨[], p :: t, p :: digits, .none, rfl, hGrouped, fun hHead => ?_, rfl, Nat.le_refl _⟩
    exact absurd (Option.some.inj hHead) hZero
  have hFillers : ∀ {zeros : Text}, Front zeros → ∀ p ∈ zeros, IsFiller p := by
    intro zeros hFront
    cases hFront with
    | none => exact nofun
    | zeros hZeros => exact List.forall_mem_cons.mpr ⟨.inl rfl, hZeros⟩
  induction h with
  | @last p hp =>
    by_cases hZero : p = .scalar '0'
    · subst hZero
      exact ⟨[], _, _, .none, rfl, .last hp, fun _ => rfl, rfl, Nat.le_refl _⟩
    · exact hStays hZero (.last hp)
  | @digit p t digits hp hRest ih =>
    by_cases hZero : p = .scalar '0'
    · subst hZero
      obtain ⟨zeros, rest, digits', hFront, rfl, hGrouped, hNeedful, hValue, hLength⟩ := ih
      refine ⟨.scalar '0' :: zeros, rest, digits', .zeros (hFillers hFront), rfl, hGrouped,
        hNeedful, hValue, ?_⟩
      rw [List.length_cons]
      omega
    · exact hStays hZero (.digit hp hRest)
  | @underscore p t digits hp hRest ih =>
    by_cases hZero : p = .scalar '0'
    · subst hZero
      obtain ⟨zeros, rest, digits', hFront, rfl, hGrouped, hNeedful, hValue, hLength⟩ := ih
      refine ⟨.scalar '0' :: .scalar '_' :: zeros, rest, digits',
        .zeros (List.forall_mem_cons.mpr ⟨.inr rfl, hFillers hFront⟩), rfl, hGrouped, hNeedful,
        hValue, ?_⟩
      rw [List.length_cons]
      omega
    · exact hStays hZero (.underscore hp hRest)

/-- Every usual numeral spells its number. -/
theorem Usual.spells {t digits : Text} {n : Int} (h : Usual t digits n) :
    ∃ digits', Spells t digits' n ∧ digits'.length ≤ digits.length := by
  obtain ⟨hBefore, hWhole, hFraction, hAfter⟩ := h
  obtain ⟨hSign, hGrouped⟩ := hWhole
  obtain ⟨zeros, rest, digits', hFront, rfl, hRest, hNeedful, hValue, hLength⟩ :=
    hGrouped.exists_front
  rw [← hValue]
  exact ⟨digits', .mk hBefore (.signAhead hSign hFront hRest hNeedful) hFraction hAfter, hLength⟩

/-- The digits of an integer are a usual numeral of it. -/
theorem usual_ofInt (n : Int) : Usual (Text.ofInt n) (Text.ofNat n.natAbs) n := by
  have hGrouped : Grouped (Text.ofNat n.natAbs) (Text.ofNat n.natAbs) :=
    .of_digits (fun p hp => Text.isDigit_of_mem_ofNat hp) (Text.ofNat_ne_nil _)
  have hSigned : ∀ {sign : Text} {negative : Bool}, Sign sign negative →
      Usual (sign ++ Text.ofNat n.natAbs) (Text.ofNat n.natAbs) (signed negative n.natAbs) := by
    intro sign negative hSign
    have hWhite : ∀ p ∈ ([] : Text), Text.isWhiteSpace p = true := nofun
    have hFramed := Framed.mk hWhite (Signed.mk hSign hGrouped) .none hWhite
    rw [Text.digitsValue_ofNat, List.nil_append, List.append_nil, List.append_nil] at hFramed
    exact hFramed
  cases n with
  | ofNat n => exact hSigned .none
  | negSucc n => exact hSigned .minus

end OscMonitor.Numeral
