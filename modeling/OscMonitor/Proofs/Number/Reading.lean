import OscMonitor.Proofs.Number.Dropping

/-!
# Reading an integer

The steps of the reader, one after the other, let through exactly the texts that spell an integer:
what is dropped on the way puts a spelling together around the digits that are left, and of every
spelling the steps leave its digits. So a text that is read as an integer has the value of its
digits, and nothing is rounded, cut off or wrapped around.

Main results:

* `exists_spells` — a text that is read as an integer spells it.
* `integer_of_spells`, `Spells.unique` — a text is read as the integer that it spells, which is one.
* `integer_eq_ok_iff` — both, with the limit on the digits that count.
-/

namespace OscMonitor.Numeral

/-! ## What is read is a spelling -/

/-- The sign that is put back in front of what is left. -/
def minusText (negative : Bool) : Text := if negative then [.scalar '-'] else []

theorem sign_minusText (negative : Bool) : Sign (minusText negative) negative := by
  cases negative with
  | false => exact .none
  | true => exact .minus

theorem bareInteger?_eq_some_iff {t bare : Text} :
    bareInteger? t = some bare ↔ ∃ negative body rest,
      splitSoleSign? (Text.trim Text.isWhiteSpace t) = some (negative, body) ∧
      dropZeros? body = some rest ∧
      bare = minusText negative ++ dropUnderscores (dropZeroFraction rest) := by
  have hBack : ∀ (negative : Bool) (u : Text),
      (if negative then .scalar '-' :: u else u) = minusText negative ++ u := by
    intro negative u
    cases negative <;> rfl
  simp only [bareInteger?, Option.bind_eq_bind, Option.bind_eq_some_iff, Prod.exists, hBack,
    Option.pure_def, Option.some.injEq]
  constructor
  · rintro ⟨negative, body, hSign, rest, hZeros, rfl⟩
    exact ⟨negative, body, rest, hSign, hZeros, rfl⟩
  · rintro ⟨negative, body, rest, hSign, hZeros, rfl⟩
    exact ⟨negative, body, hSign, rest, hZeros, rfl⟩

/-- In what is read as a plain integer, underscores stood apart and there was no point. -/
theorem core_of_plainInteger {sign core : Text} {n : Int}
    (h : plainInteger (sign ++ dropUnderscores core) = .ok n) :
    underscoresApart core = true ∧ .scalar '.' ∉ core ∧
      plainInteger (sign ++ withoutUnderscores core) = .ok n := by
  have hNot : ∀ p, p.isDigit = false → p ≠ .scalar '+' → p ≠ .scalar '-' →
      p ∉ dropUnderscores core := by
    intro p hDigit hPlus hMinus hMem
    exact not_mem_of_plainInteger h hDigit hPlus hMinus (List.mem_append_right _ hMem)
  have hApart := underscoresApart_of_dropped (hNot (.scalar '_') rfl nofun nofun)
  have hDropped : dropUnderscores core = withoutUnderscores core := if_pos hApart
  rw [hDropped] at h hNot
  refine ⟨hApart, fun hMem => ?_, h⟩
  exact hNot (.scalar '.') rfl nofun nofun (List.mem_filter.mpr ⟨hMem, rfl⟩)

/-- Digits that count are in groups, when they are read after a sign. -/
theorem grouped_of_plainInteger {negative : Bool} {p : CodePoint} {t : Text} {n : Int}
    (hDigit : p.isDigit = true) (hApart : underscoresApart (p :: t) = true)
    (h : plainInteger (minusText negative ++ withoutUnderscores (p :: t)) = .ok n) :
    ∃ digits, Grouped (p :: t) digits ∧ Needful digits ∧ digits.length ≤ digitLimit ∧
      n = signed negative (Text.digitsValue digits) := by
  obtain ⟨sign, negative', digits, hSign, hText, -, hDigits, hNeedful, hLimit, rfl⟩ :=
    plainInteger_eq_ok_iff.mp h
  have hKeep : withoutUnderscores (p :: t) = p :: withoutUnderscores t := by
    refine List.filter_cons_of_pos (bne_iff_ne.mpr ?_)
    rintro rfl
    cases hDigit
  -- the sign is the one that was put back, since a digit follows it
  have hSplit := splitSign_append hSign fun q hq => hDigits q (List.mem_of_mem_head? hq)
  have hBack : splitSign (minusText negative ++ withoutUnderscores (p :: t)) =
      (negative, withoutUnderscores (p :: t)) := by
    refine splitSign_append (sign_minusText negative) fun q hq => ?_
    rw [hKeep] at hq
    obtain rfl := Option.some.inj hq
    exact hDigit
  rw [hText, hSplit] at hBack
  obtain ⟨rfl, rfl⟩ := Prod.mk.inj hBack
  have hFollows : underscoresApart.follows true (p :: t) = true := hApart
  obtain ⟨hFalse, -⟩ | ⟨gap, rest, -, hGap, hRest, hGrouped⟩ := exists_grouped hFollows hDigits
  · cases hFalse
  · obtain rfl := hGap rfl
    obtain rfl : p :: t = rest := hRest
    exact ⟨_, hGrouped, hNeedful, hLimit, rfl⟩

/-- A minus sign that is left over stands in for the one in front, and digits follow it. -/
theorem behind_of_plainInteger {negative : Bool} {t : Text} {n : Int}
    (hApart : underscoresApart (.scalar '-' :: t) = true)
    (h : plainInteger (minusText negative ++ withoutUnderscores (.scalar '-' :: t)) = .ok n) :
    negative = false ∧ ∃ gap rest digits, t = gap ++ rest ∧ MaybeUnderscore gap ∧
      Grouped rest digits ∧ Needful digits ∧ digits.length ≤ digitLimit ∧
      n = signed true (Text.digitsValue digits) := by
  obtain ⟨sign, negative', digits, hSign, hText, hNonempty, hDigits, hNeedful, hLimit, rfl⟩ :=
    plainInteger_eq_ok_iff.mp h
  have hSplit := splitSign_append hSign fun q hq => hDigits q (List.mem_of_mem_head? hq)
  rw [← hText] at hSplit
  cases negative with
  | true =>
    -- the second of two minus signs is no digit
    obtain ⟨-, rfl⟩ := Prod.mk.inj hSplit
    have hFalse := hDigits (.scalar '-') List.mem_cons_self
    cases hFalse
  | false =>
    obtain ⟨rfl, rfl⟩ := Prod.mk.inj hSplit
    have hFollows : underscoresApart.follows false t = true := hApart
    obtain ⟨-, rfl⟩ | ⟨gap, rest, hGap, -, rfl, hGrouped⟩ := exists_grouped hFollows hDigits
    · exact absurd rfl hNonempty
    · exact ⟨rfl, gap, rest, _, rfl, hGap, hGrouped, hNeedful, hLimit, rfl⟩

/-- What is read when the zeros in front are dropped is the rest of a whole number and a fraction of
zeros. -/
theorem exists_whole {sign zeros rest : Text} {negative : Bool} {n : Int}
    (hSign : Sign sign negative) (hFront : Front zeros)
    (hHead : negative = false → (zeros ++ rest).head? ≠ some (.scalar '-'))
    (hRemains : Remains rest)
    (h : plainInteger (minusText negative ++ dropUnderscores (dropZeroFraction rest)) = .ok n) :
    ∃ whole fraction negative' digits, sign ++ (zeros ++ rest) = whole ++ fraction ∧
      Whole whole negative' digits ∧ ZeroFraction fraction ∧ digits.length ≤ digitLimit ∧
      n = signed negative' (Text.digitsValue digits) := by
  obtain ⟨hApart, hPoint, h⟩ := core_of_plainInteger h
  obtain ⟨fraction, hFraction, hRest⟩ := (dropZeroFraction_cases rest).resolve_right hPoint
  generalize dropZeroFraction rest = core at *
  subst hRest
  -- what remains has a first code point, and no fraction begins with it
  obtain ⟨p, t, rfl⟩ : ∃ p t, core = p :: t := by
    cases core with
    | cons p t => exact ⟨p, t, rfl⟩
    | nil =>
      exfalso
      cases hFraction with
      | none => cases hRemains
      | zeros k =>
        cases hRemains with
        | counts hp => rcases hp with ⟨hp, -⟩ | hp <;> cases hp
        | filler hp _ => rcases hp with hp | hp <;> cases hp
  have hAhead : p.isDigit = true → ∃ whole fraction' negative' digits,
      sign ++ (zeros ++ (p :: t ++ fraction)) = whole ++ fraction' ∧ Whole whole negative' digits ∧
        ZeroFraction fraction' ∧ digits.length ≤ digitLimit ∧
        n = signed negative' (Text.digitsValue digits) := by
    intro hDigit
    obtain ⟨digits, hGrouped, hNeedful, hLimit, hn⟩ := grouped_of_plainInteger hDigit hApart h
    refine ⟨_, fraction, negative, digits, ?_, .signAhead hSign hFront hGrouped hNeedful, hFraction,
      hLimit, hn⟩
    simp only [List.append_assoc]
  rw [List.cons_append] at hRemains
  cases hRemains with
  | counts hp =>
    rcases hp with ⟨hDigit, -⟩ | rfl
    · exact hAhead hDigit
    · -- a minus sign after the zeros in front
      obtain ⟨rfl, gap, rest, digits, rfl, hGap, hGrouped, hNeedful, hLimit, hn⟩ :=
        behind_of_plainInteger hApart h
      have hZeros : zeros ≠ [] := by
        rintro rfl
        exact hHead rfl rfl
      refine ⟨_, fraction, true, digits, ?_,
        .signBehind hSign hFront hZeros hGap hGrouped hNeedful, hFraction, hLimit, hn⟩
      simp only [List.append_assoc, List.cons_append]
  | filler hp hNext =>
    rcases hp with rfl | rfl
    · exact hAhead rfl
    · -- an underscore alone does not stand apart
      exfalso
      cases t with
      | nil => cases hApart
      | cons q t => exact hPoint (hNext q rfl ▸ List.mem_cons_of_mem _ List.mem_cons_self)

/-- A text that is read as an integer spells it. -/
theorem exists_spells {t : Text} {n : Int} (h : integer t = .ok n) :
    ∃ digits, Spells t digits n ∧ digits.length ≤ digitLimit := by
  unfold integer at h
  split at h
  · next bare hBare =>
    -- the text is put together again from what each step of the reader took off
    obtain ⟨negative, body, rest, hSole, hZeros, rfl⟩ := bareInteger?_eq_some_iff.mp hBare
    obtain ⟨sign, hSign, hTrim, hHead⟩ := splitSoleSign?_eq_some hSole
    obtain ⟨hRemains, zeros, hFront, rfl⟩ := dropZeros?_eq_some hZeros
    obtain ⟨whole, fraction, negative', digits, hWhole, hPart, hFraction, hLimit, rfl⟩ :=
      exists_whole hSign hFront hHead hRemains h
    obtain ⟨before, after, hText, hBefore, hAfter⟩ := Text.exists_trim Text.isWhiteSpace t
    rw [hTrim, hWhole] at hText
    rw [hText]
    exact ⟨digits, .mk hBefore hPart hFraction hAfter, hLimit⟩
  · cases h

/-! ## Spellings are read -/

/-- The digits that count are left when the zeros in front are dropped. -/
theorem Grouped.dropZeros?_eq {zeros t digits fraction : Text} (hFront : Front zeros)
    (hGrouped : Grouped t digits) (hNeedful : Needful digits) (hFraction : ZeroFraction fraction) :
    dropZeros? (zeros ++ (t ++ fraction)) = some (t ++ fraction) := by
  obtain ⟨p, rest, rfl, hDigit⟩ := hGrouped.head_isDigit
  by_cases hZero : p = .scalar '0'
  · subst hZero
    obtain rfl := hNeedful.eq_of_zero hGrouped
    exact dropZeros?_of_zero hFront hFraction
  · exact dropZeros?_of_counts hFront (.inl ⟨hDigit, hZero⟩)

/-- The steps of the reader leave the digits that count, after the sign. -/
theorem Whole.bareInteger? {whole fraction digits : Text} {negative : Bool}
    (h : Whole whole negative digits) (hFraction : ZeroFraction fraction) :
    ∃ negative' body rest, splitSoleSign? (whole ++ fraction) = some (negative', body) ∧
      dropZeros? body = some rest ∧
      minusText negative' ++ dropUnderscores (dropZeroFraction rest) =
        minusText negative ++ digits := by
  cases h with
  | @signAhead sign zeros t _ _ hSign hFront hGrouped hNeedful =>
    -- a digit follows the sign, so the sign is split off
    have hHead : ∀ p, (zeros ++ (t ++ fraction)).head? = some p → p.isDigit = true := by
      refine hFront.head_isDigit fun _ p hp => ?_
      obtain ⟨q, rest, rfl, hDigit⟩ := hGrouped.head_isDigit
      obtain rfl := Option.some.inj hp
      exact hDigit
    have hPoint : .scalar '.' ∉ t := hGrouped.not_mem rfl nofun
    refine ⟨negative, zeros ++ (t ++ fraction), t ++ fraction, ?_,
      hGrouped.dropZeros?_eq hFront hNeedful hFraction, ?_⟩
    · rw [List.append_assoc, List.append_assoc, splitSoleSign?_append hSign hHead]
    · rw [dropZeroFraction_append hPoint hFraction, hGrouped.dropUnderscores]
  | @signBehind sign zeros gap t _ hSign hFront hZeros hGap hGrouped hNeedful =>
    -- the minus sign comes after the zeros, so it is left among what counts and not put back
    have hHead : ∀ p, (zeros ++ .scalar '-' :: (gap ++ t ++ fraction)).head? = some p →
        p.isDigit = true := hFront.head_isDigit fun h => absurd h hZeros
    have hPoint : .scalar '.' ∉ .scalar '-' :: (gap ++ t) := by
      rw [List.mem_cons, List.mem_append, not_or, not_or]
      refine ⟨nofun, ?_, hGrouped.not_mem rfl nofun⟩
      rcases hGap with rfl | rfl <;> decide
    have hCore : dropUnderscores (.scalar '-' :: (gap ++ t)) = .scalar '-' :: digits := by
      have hFollows : underscoresApart.follows false (gap ++ t) = true := by
        rcases hGap with rfl | rfl
        · exact hGrouped.parted.follows false
        · exact hGrouped.parted.follows true
      have hApart : underscoresApart (.scalar '-' :: (gap ++ t)) = true := hFollows
      have hSame : withoutUnderscores (.scalar '-' :: (gap ++ t)) =
          .scalar '-' :: withoutUnderscores t := by
        rcases hGap with rfl | rfl <;> rfl
      rw [dropUnderscores, if_pos hApart, hSame, hGrouped.parted.withoutUnderscores]
    refine ⟨false, _, .scalar '-' :: (gap ++ t ++ fraction), ?_,
      dropZeros?_of_counts hFront (.inr rfl), ?_⟩
    · rw [← splitSoleSign?_append hSign hHead]
      simp only [List.append_assoc, List.cons_append]
    · rw [← List.cons_append, dropZeroFraction_append hPoint hFraction, hCore]
      rfl

/-- Of a text that spells an integer, a sign and the digits that count are left. -/
theorem bareInteger?_of_spells {t digits : Text} {n : Int} (h : Spells t digits n) :
    ∃ negative, bareInteger? t = some (minusText negative ++ digits) ∧
      n = signed negative (Text.digitsValue digits) ∧
      ∃ t', Grouped t' digits ∧ Needful digits := by
  obtain @⟨before, whole, fraction, after, digits, negative, hBefore, hWhole, hFraction, hAfter⟩ :=
    h
  obtain ⟨negative', body, rest, hSole, hZeros, hBack⟩ := hWhole.bareInteger? hFraction
  -- no mark of a numeral is white space, so just what stands around it is trimmed
  have hMarks : ∀ p ∈ whole ++ fraction, Text.isWhiteSpace p = false := by
    intro p hp
    exact (List.forall_mem_append.mpr ⟨hWhole.isMark, hFraction.isMark⟩ p hp).not_isWhiteSpace
  have hNonempty : whole ++ fraction ≠ [] := by
    intro hNil
    rw [hNil] at hSole
    obtain ⟨-, rfl⟩ := Prod.mk.inj (Option.some.inj hSole)
    cases hZeros
  have hTrim : Text.trim Text.isWhiteSpace (before ++ (whole ++ fraction) ++ after) =
      whole ++ fraction :=
    Text.trim_append hBefore hAfter (fun p hp => hMarks p (List.mem_of_mem_head? hp))
      (fun p hp => hMarks p (List.mem_of_getLast? hp)) hNonempty
  rw [← hTrim] at hSole
  refine ⟨negative, ?_, rfl, hWhole.grouped⟩
  rw [bareInteger?_eq_some_iff.mpr ⟨negative', body, rest, hSole, hZeros, rfl⟩, hBack]

/-- A text is read as the integer that it spells. -/
theorem integer_of_spells {t digits : Text} {n : Int} (h : Spells t digits n)
    (hLimit : digits.length ≤ digitLimit) : integer t = .ok n := by
  obtain ⟨negative, hBare, rfl, t', hGrouped, hNeedful⟩ := bareInteger?_of_spells h
  rw [integer, hBare]
  exact plainInteger_eq_ok_iff.mpr ⟨_, negative, digits, sign_minusText negative, rfl,
    hGrouped.digits_ne_nil, hGrouped.isDigit, hNeedful, hLimit, rfl⟩

/-- A text spells at most one integer. -/
theorem Spells.unique {t digits digits' : Text} {n n' : Int} (h : Spells t digits n)
    (h' : Spells t digits' n') : n' = n := by
  obtain ⟨negative, hBare, rfl, t₁, hGrouped, -⟩ := bareInteger?_of_spells h
  obtain ⟨negative', hBare', rfl, t₂, hGrouped', -⟩ := bareInteger?_of_spells h'
  have hSplit := splitSign_append (sign_minusText negative) fun p hp =>
    hGrouped.isDigit p (List.mem_of_mem_head? hp)
  have hSplit' := splitSign_append (sign_minusText negative') fun p hp =>
    hGrouped'.isDigit p (List.mem_of_mem_head? hp)
  -- the same text is left of both, and it is split in one way
  rw [hBare, Option.some.injEq] at hBare'
  rw [hBare', hSplit'] at hSplit
  obtain ⟨rfl, rfl⟩ := Prod.mk.inj hSplit
  rfl

/-- **A text reads as an integer exactly when it spells it**, with no more digits that count than
are read. -/
theorem integer_eq_ok_iff {t : Text} {n : Int} :
    integer t = .ok n ↔ ∃ digits, Spells t digits n ∧ digits.length ≤ digitLimit :=
  ⟨exists_spells, fun ⟨_, hSpells, hLimit⟩ => integer_of_spells hSpells hLimit⟩

end OscMonitor.Numeral
