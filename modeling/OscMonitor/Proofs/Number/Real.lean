import OscMonitor.Proofs.Number.Dropping

/-!
# Spellings of doubles

A grammar of the texts that are read as a double: a sign, then digits with at most one point among
or around them and maybe an exponent, or one of three words in any case. White space may stand
around that, or single underscores between its code points, but not both. The number of a spelling
is the value of its digits and its exponent, rounded to a double.

Nothing in the grammar knows how the reader goes about its work, in which order it takes a text
apart and what it tries first. That a text is read in one way only is therefore proved here.

Main results:

* `Mantissa`, `Power`, `Unsigned`, `PlainReal`, `SpellsReal` — the grammar.
* `plainReal?_eq_some_iff` — what is read without white space and underscores.
* `real?_eq_some_iff` — a text reads as a double exactly when it spells it.
* `SpellsReal.unique` — a text spells at most one double.
-/

namespace OscMonitor.Numeral

/-! ## The grammar -/

/-- Digits and nothing else, maybe none at all. -/
def AllDigits (t : Text) : Prop := ∀ p ∈ t, p.isDigit = true

/-- At least one digit, with at most one point among them or around them. -/
inductive Mantissa : Text → Text → Text → Prop where
  | whole {whole : Text} (hWhole : AllDigits whole) (hSome : whole ≠ []) : Mantissa whole whole []
  | point {whole fraction : Text} (hWhole : AllDigits whole) (hFraction : AllDigits fraction)
    (hSome : whole ≠ [] ∨ fraction ≠ []) :
    Mantissa (whole ++ .scalar '.' :: fraction) whole fraction

/-- A power of ten, which may be missing. -/
inductive Power : Text → Int → Prop where
  | none : Power [] 0
  | letter {c : Char} {sign digits : Text} {negative : Bool} (hLetter : c = 'e' ∨ c = 'E')
    (hSign : Sign sign negative) (hDigits : AllDigits digits) (hSome : digits ≠ []) :
    Power (.scalar c :: (sign ++ digits)) (signed negative (Text.digitsValue digits))

/-- A double as it is spelled after its sign. -/
inductive Unsigned (negative : Bool) : Text → Double → Prop where
  | infinite {t : Text} (h : t.lowerAscii = "inf" ∨ t.lowerAscii = "infinity") :
    Unsigned negative t (.infinite negative)
  | nan {t : Text} (h : t.lowerAscii = "nan") : Unsigned negative t .nan
  | decimal {mantissa power whole fraction : Text} {exponent : Int}
    (hMantissa : Mantissa mantissa whole fraction) (hPower : Power power exponent) :
    Unsigned negative (mantissa ++ power)
      (Double.ofDecimal negative (decimal whole fraction exponent))

/-- A double as it is spelled without white space and underscores. -/
inductive PlainReal : Text → Double → Prop where
  | mk {sign t : Text} {negative : Bool} {x : Double} (hSign : Sign sign negative)
    (hUnsigned : Unsigned negative t x) : PlainReal (sign ++ t) x

/-- The texts that are read as a double. -/
inductive SpellsReal : Text → Double → Prop where
  | framed {before t after : Text} {x : Double}
    (hBefore : ∀ p ∈ before, Text.isWhiteSpace p = true) (hReal : PlainReal t x)
    (hAfter : ∀ p ∈ after, Text.isWhiteSpace p = true) : SpellsReal (before ++ t ++ after) x
  | parted {t u : Text} {x : Double} (hParted : Parted t u) (hReal : PlainReal u x) : SpellsReal t x

/-! ## Digits and exponents -/

theorem splitDigits_eq {t digits rest : Text} (h : splitDigits t = (digits, rest)) :
    t = digits ++ rest ∧ AllDigits digits := by
  obtain ⟨rfl, rfl⟩ := Prod.mk.inj h
  exact ⟨List.takeWhile_append_dropWhile.symm, fun p hp => List.mem_takeWhile_imp hp⟩

/-- A power of ten is split off where one is spelled. -/
theorem power_of_splitExponent? {t : Text} {n : Int} (h : splitExponent? t = some (n, [])) :
    Power t n := by
  unfold splitExponent? at h
  split at h
  · next c rest =>
    split at h
    · next hLetter =>
      obtain ⟨sign, hSign, hRest⟩ := exists_sign rest
      generalize splitSign rest = parts at h hSign hRest
      obtain ⟨negative, body⟩ := parts
      subst hRest
      dsimp only at h
      split at h
      · cases h
      · next digits left hSome hDigits =>
        obtain ⟨rfl, rfl⟩ := Prod.mk.inj (Option.some.inj h)
        obtain ⟨hBody, hAll⟩ := splitDigits_eq hDigits
        rw [List.append_nil] at hBody
        subst hBody
        exact .letter hLetter hSign hAll hSome
    · cases h
  · cases h

theorem Power.splitExponent? {t : Text} {n : Int} (h : Power t n) (hSome : t ≠ []) :
    splitExponent? t = some (n, []) := by
  cases h with
  | none => exact absurd rfl hSome
  | @letter c sign digits negative hLetter hSign hDigits hSome =>
    have hSplit := splitSign_append hSign fun p hp => hDigits p (List.mem_of_mem_head? hp)
    have hAll : splitDigits (digits ++ []) = (digits, []) := splitDigits_append hDigits nofun
    rw [List.append_nil] at hAll
    simp only [Numeral.splitExponent?, hLetter, if_true, hSplit, hAll]

theorem exponent?_eq_some_iff {t : Text} {n : Int} : exponent? t = some n ↔ Power t n := by
  unfold exponent?
  by_cases hNil : t = []
  · subst hNil
    rw [if_pos rfl]
    constructor
    · intro h
      obtain rfl := Option.some.inj h
      exact .none
    · rintro ⟨⟩
      rfl
  · rw [if_neg hNil]
    constructor
    · intro h
      split at h
      · next hSplit =>
        obtain rfl := Option.some.inj h
        exact power_of_splitExponent? hSplit
      · cases h
    · intro h
      rw [h.splitExponent? hNil]

/-- No power of ten goes on with digits, or with a point. -/
theorem Power.head {t : Text} {n : Int} (h : Power t n) :
    ∀ p, t.head? = some p → p = .scalar 'e' ∨ p = .scalar 'E' := by
  cases h with
  | none => exact nofun
  | letter hLetter _ _ _ =>
    rintro p ⟨⟩
    exact hLetter.imp (congrArg CodePoint.scalar) (congrArg CodePoint.scalar)

/-! ## Digits with a point -/

/-- What is split off in front of a power is what the digits spell. -/
theorem Mantissa.split {mantissa power whole fraction : Text} {n : Int}
    (h : Mantissa mantissa whole fraction) (hPower : Power power n) :
    ∃ rest, splitDigits (mantissa ++ power) = (whole, rest) ∧
      splitFraction rest = (fraction, power) ∧ ¬ (whole = [] ∧ fraction = []) := by
  have hStops : ∀ p, power.head? = some p → p.isDigit = false := by
    intro p hp
    rcases hPower.head p hp with rfl | rfl <;> rfl
  cases h with
  | whole hWhole hSome =>
    refine ⟨power, splitDigits_append hWhole hStops, ?_, fun h => hSome h.1⟩
    unfold splitFraction
    split
    · rcases hPower.head _ rfl with h | h <;> cases h
    · rfl
  | point hWhole hFraction hSome =>
    refine ⟨.scalar '.' :: (fraction ++ power), ?_, splitDigits_append hFraction hStops,
      not_and_or.mpr hSome⟩
    rw [List.append_assoc]
    exact splitDigits_append hWhole fun p hp => by
      obtain rfl := Option.some.inj hp
      rfl

theorem mantissa_of_split {t whole rest fraction power : Text}
    (hDigits : splitDigits t = (whole, rest)) (hFraction : splitFraction rest = (fraction, power))
    (hSome : ¬ (whole = [] ∧ fraction = [])) :
    ∃ mantissa, t = mantissa ++ power ∧ Mantissa mantissa whole fraction := by
  obtain ⟨rfl, hWhole⟩ := splitDigits_eq hDigits
  unfold splitFraction at hFraction
  split at hFraction
  · next rest =>
    obtain ⟨rfl, hAll⟩ := splitDigits_eq hFraction
    refine ⟨_, ?_, .point hWhole hAll (not_and_or.mp hSome)⟩
    rw [List.append_assoc]
    rfl
  · obtain ⟨rfl, rfl⟩ := Prod.mk.inj hFraction
    exact ⟨whole, rfl, .whole hWhole fun hNone => hSome ⟨hNone, rfl⟩⟩

/-! ## Words -/

/-- A letter of ASCII, in either case. -/
def IsLetter (p : CodePoint) : Prop :=
  (65 ≤ p.number ∧ p.number ≤ 90) ∨ (97 ≤ p.number ∧ p.number ≤ 122)

theorem lowerAscii_eq_self {p : CodePoint} (h : p.number < 65 ∨ 90 < p.number) :
    p.lowerAscii = p := by
  cases p with
  | surrogate => rfl
  | scalar c =>
    refine congrArg CodePoint.scalar (dif_neg fun hUpper => ?_)
    simp only [ge_iff_le, UInt32.le_iff_toNat_le] at hUpper
    change 65 ≤ c.toNat ∧ c.toNat ≤ 90 at hUpper
    simp only [CodePoint.number] at h
    omega

theorem isLetter_of_lowerAscii {p : CodePoint} (h : IsLetter p.lowerAscii) : IsLetter p := by
  by_cases hUpper : 65 ≤ p.number ∧ p.number ≤ 90
  · exact .inl hUpper
  · rwa [lowerAscii_eq_self (by omega)] at h

/-- A text is made of letters when it is a word of letters but for its case. -/
theorem isLetter_of_lowerAscii_eq {t word : Text} (h : t.lowerAscii = word)
    (hWord : ∀ p ∈ word, IsLetter p) : ∀ p ∈ t, IsLetter p := by
  intro p hp
  refine isLetter_of_lowerAscii (hWord _ ?_)
  rw [← h]
  exact List.mem_map_of_mem hp

instance (p : CodePoint) : Decidable (IsLetter p) :=
  inferInstanceAs (Decidable (_ ∨ _))

theorem isLetter_of_infinite {t : Text} (h : t.lowerAscii = "inf" ∨ t.lowerAscii = "infinity") :
    ∀ p ∈ t, IsLetter p := by
  rcases h with h | h <;> exact isLetter_of_lowerAscii_eq h (by decide)

theorem isLetter_of_nan {t : Text} (h : t.lowerAscii = "nan") : ∀ p ∈ t, IsLetter p :=
  isLetter_of_lowerAscii_eq h (by decide)

theorem number_of_isDigit {p : CodePoint} (h : p.isDigit = true) :
    48 ≤ p.number ∧ p.number ≤ 57 := by
  obtain ⟨n, hn⟩ := Option.isSome_iff_exists.mp h
  obtain ⟨c, rfl, hc, hLt⟩ := CodePoint.digit?_eq_some_iff.mp hn
  simp only [CodePoint.number]
  omega

/-! ## After the sign -/

/-- Digits with a point among them begin with a digit or the point. -/
theorem Mantissa.exists_head {mantissa whole fraction : Text}
    (h : Mantissa mantissa whole fraction) :
    ∃ p rest, mantissa = p :: rest ∧ 46 ≤ p.number ∧ p.number ≤ 57 := by
  have hDigit : ∀ {p : CodePoint} {digits : Text}, AllDigits (p :: digits) →
      46 ≤ p.number ∧ p.number ≤ 57 := by
    intro p digits hDigits
    have hNumber := number_of_isDigit (hDigits p List.mem_cons_self)
    omega
  cases h with
  | whole hWhole hSome =>
    obtain ⟨p, rest, rfl⟩ := List.exists_cons_of_ne_nil hSome
    exact ⟨p, rest, rfl, hDigit hWhole⟩
  | @point whole fraction hWhole hFraction hSome =>
    cases whole with
    | nil => exact ⟨.scalar '.', fraction, rfl, by decide⟩
    | cons p rest => exact ⟨p, rest ++ .scalar '.' :: fraction, rfl, hDigit hWhole⟩

theorem unsignedReal?_eq_some_iff {negative : Bool} {t : Text} {x : Double} :
    unsignedReal? negative t = some x ↔ Unsigned negative t x := by
  constructor
  · intro h
    unfold unsignedReal? at h
    dsimp only at h
    split at h
    · next hWord =>
      obtain rfl := Option.some.inj h
      exact .infinite hWord
    split at h
    · next hWord =>
      obtain rfl := Option.some.inj h
      exact .nan hWord
    split at h
    · cases h
    · next hSome =>
      obtain ⟨n, hExponent, rfl⟩ := Option.map_eq_some_iff.mp h
      generalize hDigits : splitDigits t = digits at *
      obtain ⟨whole, rest⟩ := digits
      generalize hFraction : splitFraction rest = parts at *
      obtain ⟨fraction, power⟩ := parts
      obtain ⟨mantissa, rfl, hMantissa⟩ := mantissa_of_split hDigits hFraction hSome
      exact .decimal hMantissa (exponent?_eq_some_iff.mp hExponent)
  · intro h
    unfold unsignedReal?
    cases h with
    | infinite hWord => exact if_pos hWord
    | nan hWord =>
      have hOther : ¬ (t.lowerAscii = "inf" ∨ t.lowerAscii = "infinity") := by
        rw [hWord]
        decide
      exact (if_neg hOther).trans (if_pos hWord)
    | @decimal mantissa power whole fraction n hMantissa hPower =>
      -- a digit or a point stands in no word
      obtain ⟨p, rest, hHead, hNumber⟩ := hMantissa.exists_head
      have hMem : p ∈ mantissa ++ power := by
        rw [hHead]
        exact List.mem_append_left _ List.mem_cons_self
      have hNoLetter : ¬ IsLetter p := by
        unfold IsLetter
        omega
      have hNotInfinite : ¬ ((mantissa ++ power).lowerAscii = "inf" ∨
          (mantissa ++ power).lowerAscii = "infinity") :=
        fun h => hNoLetter (isLetter_of_infinite h p hMem)
      have hNotNan : (mantissa ++ power).lowerAscii ≠ "nan" :=
        fun h => hNoLetter (isLetter_of_nan h p hMem)
      obtain ⟨rest, hDigits, hFraction, hSome⟩ := hMantissa.split hPower
      simp only [if_neg hNotInfinite, if_neg hNotNan, hDigits, hFraction, if_neg hSome,
        exponent?_eq_some_iff.mpr hPower, Option.map_some]

/-! ## What spellings are made of -/

/-- A code point of a spelling: none of them is white space, an underscore or half of a pair. -/
def IsRealMark (p : CodePoint) : Prop := 43 ≤ p.number ∧ p.number ≤ 122 ∧ p.number ≠ 95

instance (p : CodePoint) : Decidable (IsRealMark p) := inferInstanceAs (Decidable (_ ∧ _))

namespace IsRealMark

variable {p : CodePoint}

theorem of_isDigit (h : p.isDigit = true) : IsRealMark p := by
  have hNumber := number_of_isDigit h
  unfold IsRealMark
  omega

theorem of_isLetter (h : IsLetter p) : IsRealMark p := by
  unfold IsLetter at h
  unfold IsRealMark
  omega

theorem not_isWhiteSpace (h : IsRealMark p) : Text.isWhiteSpace p = false := by
  unfold IsRealMark at h
  simp only [Text.isWhiteSpace, Bool.or_eq_false_iff, Bool.and_eq_false_iff,
    decide_eq_false_iff_not, beq_eq_false_iff_ne]
  omega

theorem number_lt (h : IsRealMark p) : p.number < 0xD800 := Nat.lt_of_le_of_lt h.2.1 (by decide)

theorem ne_underscore (h : IsRealMark p) : p ≠ .scalar '_' := by
  rintro rfl
  exact h.2.2 rfl

end IsRealMark

theorem Sign.isRealMark {t : Text} {negative : Bool} (h : Sign t negative) :
    ∀ p ∈ t, IsRealMark p := by
  cases h <;> decide

theorem Power.isRealMark {t : Text} {n : Int} (h : Power t n) : ∀ p ∈ t, IsRealMark p := by
  cases h with
  | none => exact nofun
  | letter hLetter hSign hDigits _ =>
    refine List.forall_mem_cons.mpr ⟨?_, List.forall_mem_append.mpr
      ⟨hSign.isRealMark, fun p hp => .of_isDigit (hDigits p hp)⟩⟩
    rcases hLetter with rfl | rfl <;> decide

theorem Mantissa.isRealMark {mantissa whole fraction : Text}
    (h : Mantissa mantissa whole fraction) : ∀ p ∈ mantissa, IsRealMark p := by
  have hAll : ∀ {digits : Text}, AllDigits digits → ∀ p ∈ digits, IsRealMark p :=
    fun hDigits p hp => .of_isDigit (hDigits p hp)
  cases h with
  | whole hWhole _ => exact hAll hWhole
  | point hWhole hFraction _ =>
    exact List.forall_mem_append.mpr
      ⟨hAll hWhole, List.forall_mem_cons.mpr ⟨by decide, hAll hFraction⟩⟩

theorem Unsigned.isRealMark {negative : Bool} {t : Text} {x : Double} (h : Unsigned negative t x) :
    ∀ p ∈ t, IsRealMark p := by
  cases h with
  | infinite hWord => exact fun p hp => .of_isLetter (isLetter_of_infinite hWord p hp)
  | nan hWord => exact fun p hp => .of_isLetter (isLetter_of_nan hWord p hp)
  | decimal hMantissa hPower =>
    exact List.forall_mem_append.mpr ⟨hMantissa.isRealMark, hPower.isRealMark⟩

theorem PlainReal.isRealMark {t : Text} {x : Double} (h : PlainReal t x) :
    ∀ p ∈ t, IsRealMark p := by
  obtain ⟨hSign, hUnsigned⟩ := h
  exact List.forall_mem_append.mpr ⟨hSign.isRealMark, hUnsigned.isRealMark⟩

/-- After a sign no other sign follows. -/
theorem Unsigned.head {negative : Bool} {t : Text} {x : Double} (h : Unsigned negative t x) :
    ∀ p, t.head? = some p → p ≠ .scalar '+' ∧ p ≠ .scalar '-' := by
  have hFirst : ∀ {p : CodePoint}, 46 ≤ p.number → p ≠ .scalar '+' ∧ p ≠ .scalar '-' := by
    intro p hp
    constructor <;> rintro rfl <;> exact absurd hp (by decide)
  have hLetter : (∀ p ∈ t, IsLetter p) →
      ∀ p, t.head? = some p → p ≠ .scalar '+' ∧ p ≠ .scalar '-' := by
    intro hWord p hp
    have hNumber := hWord p (List.mem_of_mem_head? hp)
    exact hFirst (by unfold IsLetter at hNumber; omega)
  cases h with
  | infinite hWord => exact hLetter (isLetter_of_infinite hWord)
  | nan hWord => exact hLetter (isLetter_of_nan hWord)
  | decimal hMantissa hPower =>
    obtain ⟨q, rest, rfl, hNumber⟩ := hMantissa.exists_head
    rintro p ⟨⟩
    exact hFirst hNumber.1

/-! ## What is read -/

/-- A text without white space and underscores is read as what it spells. -/
theorem plainReal?_eq_some_iff {t : Text} {x : Double} : plainReal? t = some x ↔ PlainReal t x := by
  constructor
  · intro h
    obtain ⟨sign, hSign, hText⟩ := exists_sign t
    rw [hText]
    exact .mk hSign (unsignedReal?_eq_some_iff.mp h)
  · rintro ⟨hSign, hUnsigned⟩
    rw [plainReal?, splitSign_append_of_ne hSign hUnsigned.head]
    exact unsignedReal?_eq_some_iff.mpr hUnsigned

theorem PlainReal.ne_nil {t : Text} {x : Double} (h : PlainReal t x) : t ≠ [] := by
  rintro rfl
  have hRead := plainReal?_eq_some_iff.mpr h
  cases hRead

/-- Just the white space around a spelling is trimmed. -/
theorem PlainReal.trim {t before after : Text} {x : Double} (h : PlainReal t x)
    (hBefore : ∀ p ∈ before, Text.isWhiteSpace p = true)
    (hAfter : ∀ p ∈ after, Text.isWhiteSpace p = true) :
    Text.trim Text.isWhiteSpace (before ++ t ++ after) = t :=
  Text.trim_append hBefore hAfter
    (fun p hp => (h.isRealMark p (List.mem_of_mem_head? hp)).not_isWhiteSpace)
    (fun p hp => (h.isRealMark p (List.mem_of_getLast? hp)).not_isWhiteSpace) h.ne_nil

/-- There is no white space to trim around a spelling with underscores. -/
theorem PlainReal.trim_parted {t u : Text} {x : Double} (h : PlainReal u x) (hParted : Parted t u) :
    Text.trim Text.isWhiteSpace t = t := by
  have hNoWhite : ∀ p ∈ t, Text.isWhiteSpace p = false := by
    intro p hp
    rcases hParted.mem p hp with rfl | hKept
    · decide
    · exact (h.isRealMark p hKept).not_isWhiteSpace
  have hSome : t ≠ [] := by
    rintro rfl
    cases hParted
  have hTrim : Text.trim Text.isWhiteSpace ([] ++ t ++ []) = t :=
    Text.trim_append nofun nofun (fun p hp => hNoWhite p (List.mem_of_mem_head? hp))
      (fun p hp => hNoWhite p (List.mem_of_getLast? hp)) hSome
  rwa [List.nil_append, List.append_nil] at hTrim

/-- A spelling with and without underscores in it has none. -/
theorem PlainReal.eq_of_parted {t u : Text} {x y : Double} (h : PlainReal u x)
    (hParted : Parted t u) (hPlain : PlainReal t y) : x = y := by
  have hNone : withoutUnderscores t = t :=
    List.filter_eq_self.mpr fun p hp => bne_iff_ne.mpr (hPlain.isRealMark p hp).ne_underscore
  rw [hParted.withoutUnderscores] at hNone
  subst hNone
  exact Option.some.inj
    ((plainReal?_eq_some_iff.mpr h).symm.trans (plainReal?_eq_some_iff.mpr hPlain))

/-- There is nothing in a spelling that comes after the surrogates or among them. -/
theorem SpellsReal.number_lt {t : Text} {x : Double} (h : SpellsReal t x) :
    ∀ p ∈ t, p.number < 0xD800 := by
  cases h with
  | @framed before t after _ hBefore hReal hAfter =>
    simp only [List.forall_mem_append]
    exact ⟨⟨fun p hp => Text.number_lt_of_isWhiteSpace (hBefore p hp),
        fun p hp => (hReal.isRealMark p hp).number_lt⟩,
      fun p hp => Text.number_lt_of_isWhiteSpace (hAfter p hp)⟩
  | parted hParted hReal =>
    intro p hp
    rcases hParted.mem p hp with rfl | hKept
    · decide
    · exact (hReal.isRealMark p hKept).number_lt

/-- **A text reads as a double exactly when it spells it.** -/
theorem real?_eq_some_iff {t : Text} {x : Double} : real? t = some x ↔ SpellsReal t x := by
  unfold real?
  constructor
  · intro h
    rcases Option.or_eq_some_iff.mp h with hFramed | ⟨-, hParted⟩
    · obtain ⟨before, after, hText, hBefore, hAfter⟩ := Text.exists_trim Text.isWhiteSpace t
      rw [hText]
      exact .framed hBefore (plainReal?_eq_some_iff.mp hFramed) hAfter
    · split at hParted
      · next hApart =>
        have hReal := plainReal?_eq_some_iff.mp hParted
        refine .parted (parted_of_underscoresApart hApart ?_) hReal
        rintro rfl
        exact hReal.ne_nil rfl
      · cases hParted
  · intro h
    cases h with
    | @framed before t after _ hBefore hReal hAfter =>
      rw [hReal.trim hBefore hAfter, plainReal?_eq_some_iff.mpr hReal, Option.some_or]
    | @parted _ u _ hParted hReal =>
      rw [if_pos hParted.underscoresApart, hParted.withoutUnderscores,
        plainReal?_eq_some_iff.mpr hReal]
      -- what is parted is also read as it stands only if there are no underscores in it
      rw [hReal.trim_parted hParted]
      cases hPlain : plainReal? t with
      | none => exact Option.none_or
      | some y =>
        obtain rfl := hReal.eq_of_parted hParted (plainReal?_eq_some_iff.mp hPlain)
        exact Option.some_or

/-- A text spells at most one double. -/
theorem SpellsReal.unique {t : Text} {x y : Double} (hx : SpellsReal t x) (hy : SpellsReal t y) :
    x = y :=
  Option.some.inj ((real?_eq_some_iff.mpr hx).symm.trans (real?_eq_some_iff.mpr hy))

end OscMonitor.Numeral
