import Mathlib.Data.List.DropRight
import OscMonitor.Proofs.Number.Spelling

/-!
# What does not count in an integer

The reader of integers takes a text apart step by step, and each step drops something that does not
count: the white space around, a sign, the zeros in front, a fraction of zeros, the underscores.
Here is what each step drops and what it leaves, and what the plain integer at the end is.

Main results:

* `Text.exists_trim`, `splitSoleSign?_eq_some`, `dropZeros?_eq_some`, `dropZeroFraction_cases`,
  `exists_grouped` — what was dropped, when a step succeeds.
* `Text.trim_append`, `splitSoleSign?_append`, `dropZeros?_of_counts`, `dropZeros?_of_zero`,
  `dropZeroFraction_append`, `Grouped.dropUnderscores` — what is left of what has the right form.
* `plainInteger_eq_ok_iff` — a plain integer is a sign and digits that are all needed.
-/

namespace OscMonitor

/-! ## Trimming -/

namespace Text

variable {f : CodePoint → Bool}

/-- What is trimmed stands around what is left. -/
theorem exists_trim (f : CodePoint → Bool) (t : Text) :
    ∃ before after, t = before ++ trim f t ++ after ∧ (∀ p ∈ before, f p = true) ∧
      ∀ p ∈ after, f p = true := by
  refine ⟨t.takeWhile f, (t.dropWhile f).rtakeWhile f, ?_, fun _ => List.mem_takeWhile_imp,
    fun _ => List.mem_rtakeWhile_imp⟩
  have hEnd : trim f t ++ (t.dropWhile f).rtakeWhile f = t.dropWhile f :=
    List.rdropWhile_append_rtakeWhile
  rw [List.append_assoc, hEnd, List.takeWhile_append_dropWhile]

/-- What begins and ends in code points that stay is left as it is. -/
theorem trim_append {before core after : Text} (hBefore : ∀ p ∈ before, f p = true)
    (hAfter : ∀ p ∈ after, f p = true) (hHead : ∀ p, core.head? = some p → f p = false)
    (hLast : ∀ p, core.getLast? = some p → f p = false) (hCore : core ≠ []) :
    trim f (before ++ core ++ after) = core := by
  have hStart : (before ++ core ++ after).dropWhile f = core ++ after := by
    rw [List.append_assoc, List.dropWhile_append_of_pos hBefore]
    cases core with
    | nil => exact absurd rfl hCore
    | cons p core => exact List.dropWhile_cons_of_neg (Bool.eq_false_iff.mp (hHead p rfl))
  have hEnd : trimEnd f core = core := by
    refine List.rdropWhile_eq_self_iff.mpr fun hCore => ?_
    rw [hLast _ (List.getLast?_eq_some_getLast hCore)]
    exact nofun
  have hAll : ∀ p ∈ after.reverse, f p = true := fun p hp => hAfter p (List.mem_reverse.mp hp)
  rw [trim, hStart, trimEnd, List.reverse_append, List.dropWhile_append_of_pos hAll]
  exact hEnd

end Text

namespace Numeral

/-! ## Signs -/

/-- A sign is split off when no other sign follows it. -/
theorem splitSign_append_of_ne {sign t : Text} {negative : Bool} (hSign : Sign sign negative)
    (hHead : ∀ p, t.head? = some p → p ≠ .scalar '+' ∧ p ≠ .scalar '-') :
    splitSign (sign ++ t) = (negative, t) := by
  cases hSign with
  | plus => rfl
  | minus => rfl
  | none =>
    rw [List.nil_append]
    unfold splitSign
    split
    · exact absurd rfl (hHead _ rfl).2
    · exact absurd rfl (hHead _ rfl).1
    · rfl

theorem splitSign_append {sign t : Text} {negative : Bool} (hSign : Sign sign negative)
    (hHead : ∀ p, t.head? = some p → p.isDigit = true) :
    splitSign (sign ++ t) = (negative, t) := by
  refine splitSign_append_of_ne hSign fun p hp => ?_
  have hDigit := hHead p hp
  constructor <;> rintro rfl <;> cases hDigit

theorem exists_sign (t : Text) :
    ∃ sign, Sign sign (splitSign t).1 ∧ t = sign ++ (splitSign t).2 := by
  unfold splitSign
  split
  · exact ⟨_, .minus, rfl⟩
  · exact ⟨_, .plus, rfl⟩
  · exact ⟨_, .none, rfl⟩

theorem splitSoleSign?_append {sign t : Text} {negative : Bool} (hSign : Sign sign negative)
    (hHead : ∀ p, t.head? = some p → p.isDigit = true) :
    splitSoleSign? (sign ++ t) = some (negative, t) := by
  unfold splitSoleSign?
  split
  · next rest heq =>
    -- a plus sign with a minus sign after it, which is no digit
    cases hSign with
    | none =>
      rw [List.nil_append] at heq
      rw [heq] at hHead
      cases hHead _ rfl
    | plus =>
      obtain rfl := List.tail_eq_of_cons_eq heq
      cases hHead _ rfl
    | minus => cases List.head_eq_of_cons_eq heq
  · rw [splitSign_append hSign hHead]

/-- A sign is split off, and after no sign there is no minus sign either. -/
theorem splitSoleSign?_eq_some {t body : Text} {negative : Bool}
    (h : splitSoleSign? t = some (negative, body)) :
    ∃ sign, Sign sign negative ∧ t = sign ++ body ∧
      (negative = false → body.head? ≠ some (.scalar '-')) := by
  unfold splitSoleSign? at h
  split at h
  · cases h
  · next hPlus =>
    have hSplit := Option.some.inj h
    unfold splitSign at hSplit
    split at hSplit
    · next rest =>
      obtain ⟨rfl, rfl⟩ := Prod.mk.inj hSplit
      exact ⟨_, .minus, rfl, nofun⟩
    · next rest =>
      obtain ⟨rfl, rfl⟩ := Prod.mk.inj hSplit
      -- a minus sign after the plus sign has been refused
      refine ⟨_, .plus, rfl, fun _ hHead => ?_⟩
      obtain ⟨tail, rfl⟩ := List.head?_eq_some_iff.mp hHead
      exact hPlus tail rfl
    · next hMinus _ =>
      obtain ⟨rfl, rfl⟩ := Prod.mk.inj hSplit
      refine ⟨_, .none, rfl, fun _ hHead => ?_⟩
      obtain ⟨tail, rfl⟩ := List.head?_eq_some_iff.mp hHead
      exact hMinus tail rfl

/-! ## Zeros in front -/

/-- What the digits that count begin with: a digit but zero, or a minus sign. -/
def Counts (p : CodePoint) : Prop := p.isDigit = true ∧ p ≠ .scalar '0' ∨ p = .scalar '-'

/-- What is left when zeros are dropped: what counts, or the last of them before a point or the
end. -/
inductive Remains : Text → Prop where
  | counts {p : CodePoint} {rest : Text} (h : Counts p) : Remains (p :: rest)
  | filler {p : CodePoint} {rest : Text} (h : IsFiller p)
    (hRest : ∀ q, rest.head? = some q → q = .scalar '.') : Remains (p :: rest)

theorem Counts.not_filler {p : CodePoint} (h : Counts p) : ¬ IsFiller p := by
  rintro (rfl | rfl)
  · rcases h with ⟨-, hZero⟩ | hMinus
    · exact hZero rfl
    · cases hMinus
  · rcases h with ⟨hDigit, -⟩ | hMinus
    · cases hDigit
    · cases hMinus

/-- Zeros and underscores are dropped, up to what remains. -/
theorem dropZerosAfter?_eq_some {q : CodePoint} {t rest : Text} (hq : IsFiller q)
    (h : dropZerosAfter? q t = some rest) :
    Remains rest ∧ ∃ zeros, (∀ p ∈ zeros, IsFiller p) ∧ q :: t = zeros ++ rest := by
  -- induction on the text; the filler that was read last stays if nothing that counts comes
  induction t generalizing q with
  | nil =>
    obtain rfl := Option.some.inj h
    exact ⟨.filler hq nofun, [], nofun, rfl⟩
  | cons p t ih =>
    rw [dropZerosAfter?] at h
    split at h
    · next hp =>
      obtain ⟨hRemains, zeros, hZeros, hSplit⟩ := ih hp h
      refine ⟨hRemains, q :: zeros, List.forall_mem_cons.mpr ⟨hq, hZeros⟩, ?_⟩
      rw [hSplit, List.cons_append]
    · next hp =>
      split at h
      · next hCounts =>
        obtain rfl := Option.some.inj h
        refine ⟨.counts ?_, [q], List.forall_mem_singleton.mpr hq, rfl⟩
        exact hCounts.imp_left fun hDigit => ⟨hDigit, fun hZero => hp (.inl hZero)⟩
      · split at h
        · next hPoint =>
          obtain rfl := Option.some.inj h
          refine ⟨.filler hq ?_, [], nofun, rfl⟩
          rintro r ⟨⟩
          exact hPoint
        · cases h

/-- The zeros in front are dropped, up to what remains. -/
theorem dropZeros?_eq_some {t rest : Text} (h : dropZeros? t = some rest) :
    Remains rest ∧ ∃ zeros, Front zeros ∧ t = zeros ++ rest := by
  cases t with
  | nil => cases h
  | cons p t =>
    rw [dropZeros?] at h
    split at h
    · next hp =>
      obtain ⟨hRemains, zeros, hZeros, hSplit⟩ := dropZerosAfter?_eq_some (.inl hp) h
      -- the zero at the front is the first of those that are dropped, if any are
      refine ⟨hRemains, zeros, ?_, hSplit⟩
      cases zeros with
      | nil => exact .none
      | cons q zeros =>
        obtain ⟨rfl, -⟩ := List.cons.inj hSplit
        subst hp
        exact .zeros fun r hr => hZeros r (List.mem_cons_of_mem _ hr)
    · next hp =>
      split at h
      · next hCounts =>
        obtain rfl := Option.some.inj h
        exact ⟨.counts (hCounts.imp_left fun hDigit => ⟨hDigit, hp⟩), [], .none, rfl⟩
      · cases h

/-- Zeros and underscores are passed over. -/
theorem dropZerosAfter?_append {q : CodePoint} {zeros rest remaining : Text}
    (hZeros : ∀ p ∈ zeros, IsFiller p)
    (h : ∀ p, IsFiller p → dropZerosAfter? p rest = some remaining) (hq : IsFiller q) :
    dropZerosAfter? q (zeros ++ rest) = some remaining := by
  induction zeros generalizing q with
  | nil => exact h q hq
  | cons p zeros ih =>
    obtain ⟨hp, hZeros⟩ := List.forall_mem_cons.mp hZeros
    have hFiller : p = .scalar '0' ∨ p = .scalar '_' := hp
    rw [List.cons_append, dropZerosAfter?, if_pos hFiller]
    exact ih hZeros hp

/-- What counts is left when the zeros in front are dropped. -/
theorem dropZeros?_of_counts {zeros rest : Text} {p : CodePoint} (hFront : Front zeros)
    (hp : Counts p) : dropZeros? (zeros ++ p :: rest) = some (p :: rest) := by
  have hZero : p ≠ .scalar '0' := fun h => hp.not_filler (.inl h)
  have hCounts : p.isDigit = true ∨ p = .scalar '-' := hp.imp_left And.left
  cases hFront with
  | none =>
    rw [List.nil_append, dropZeros?, if_neg hZero]
    exact if_pos hCounts
  | @zeros t h =>
    have hFiller : ¬ (p = .scalar '0' ∨ p = .scalar '_') := hp.not_filler
    rw [List.cons_append, dropZeros?, if_pos rfl]
    refine dropZerosAfter?_append h (fun q _ => ?_) (.inl rfl)
    rw [dropZerosAfter?, if_neg hFiller]
    exact if_pos hCounts

/-- The last zero is left when nothing else counts. -/
theorem dropZeros?_of_zero {zeros fraction : Text} (hFront : Front zeros)
    (hFraction : ZeroFraction fraction) :
    dropZeros? (zeros ++ .scalar '0' :: fraction) = some (.scalar '0' :: fraction) := by
  have hLast : ∀ p, dropZerosAfter? p (.scalar '0' :: fraction) =
      some (.scalar '0' :: fraction) := by
    intro p
    cases hFraction <;> rfl
  cases hFront with
  | none =>
    rw [List.nil_append, dropZeros?, if_pos rfl]
    exact hLast (.scalar '0')
  | @zeros t h =>
    rw [List.cons_append, dropZeros?, if_pos rfl]
    exact dropZerosAfter?_append h (fun p _ => hLast p) (.inl rfl)

/-! ## Fractions of zeros -/

theorem isZeroFraction_iff {t : Text} : isZeroFraction t = true ↔ ZeroFraction t := by
  constructor
  · intro h
    unfold isZeroFraction at h
    split at h
    · exact .none
    · next zeros =>
      rw [Bool.and_eq_true, Bool.not_eq_true', List.isEmpty_eq_false_iff, List.all_eq_true] at h
      obtain ⟨hNonempty, hZeros⟩ := h
      have hReplicate := List.eq_replicate_iff.mpr
        ⟨rfl, fun p hp => beq_iff_eq.mp (hZeros p hp)⟩
      obtain ⟨n, hn⟩ := Nat.exists_eq_succ_of_ne_zero
        (Nat.ne_of_gt (List.length_pos_iff.mpr hNonempty))
      rw [hReplicate, hn]
      exact .zeros n
    · cases h
  · rintro (_ | ⟨n⟩)
    · rfl
    · simp [isZeroFraction, List.replicate_succ]

/-- A fraction of zeros is dropped; a text with another fraction keeps its point. -/
theorem dropZeroFraction_cases (t : Text) :
    (∃ fraction, ZeroFraction fraction ∧ t = dropZeroFraction t ++ fraction) ∨
      .scalar '.' ∈ dropZeroFraction t := by
  obtain ⟨whole, hWhole⟩ : ∃ whole, t.takeWhile (· != .scalar '.') = whole := ⟨_, rfl⟩
  have hPrefix : whole <+: t := hWhole ▸ List.takeWhile_prefix _
  obtain ⟨rest, rfl⟩ := hPrefix
  unfold dropZeroFraction
  dsimp only
  rw [hWhole, List.drop_left]
  split
  · next hZeros => exact .inl ⟨rest, isZeroFraction_iff.mp hZeros, rfl⟩
  · next hZeros =>
    refine .inr ?_
    by_contra hPoint
    -- without a point everything is whole, and nothing is a fraction of zeros
    have hAll : (whole ++ rest).takeWhile (· != .scalar '.') = whole ++ rest :=
      List.takeWhile_eq_self_iff.mpr fun p hp => bne_iff_ne.mpr fun h => hPoint (h ▸ hp)
    obtain rfl := List.self_eq_append_right.mp (hWhole.symm.trans hAll)
    exact hZeros rfl

theorem dropZeroFraction_append {whole fraction : Text} (hWhole : .scalar '.' ∉ whole)
    (hFraction : ZeroFraction fraction) : dropZeroFraction (whole ++ fraction) = whole := by
  have hTake : (whole ++ fraction).takeWhile (· != .scalar '.') = whole := by
    refine List.takeWhile_append_of_head (fun p hp => ?_) ?_
    · exact bne_iff_ne.mpr fun h => hWhole (h ▸ hp)
    · cases hFraction with
      | none => exact nofun
      | zeros n =>
        rintro p ⟨⟩
        rfl
  unfold dropZeroFraction
  dsimp only
  rw [hTake, List.drop_left, if_pos (isZeroFraction_iff.mpr hFraction)]


/-! ## Underscores -/

/-- A text with single underscores between its code points, and the text without them. -/
inductive Parted : Text → Text → Prop where
  | last {p : CodePoint} (h : p ≠ .scalar '_') : Parted [p] [p]
  | next {p : CodePoint} {t u : Text} (h : p ≠ .scalar '_') (rest : Parted t u) :
    Parted (p :: t) (p :: u)
  | underscore {p : CodePoint} {t u : Text} (h : p ≠ .scalar '_') (rest : Parted t u) :
    Parted (p :: .scalar '_' :: t) (p :: u)

namespace Parted

variable {t u : Text}

theorem withoutUnderscores (h : Parted t u) : withoutUnderscores t = u := by
  have hKeep : ∀ {p : CodePoint} (t : Text), p ≠ .scalar '_' →
      Numeral.withoutUnderscores (p :: t) = p :: Numeral.withoutUnderscores t :=
    fun t hp => List.filter_cons_of_pos (bne_iff_ne.mpr hp)
  induction h with
  | last hp => exact hKeep [] hp
  | next hp _ ih => rw [hKeep _ hp, ih]
  | underscore hp _ ih =>
    rw [hKeep _ hp, ← ih]
    rfl

theorem mem (h : Parted t u) : ∀ p ∈ t, p = .scalar '_' ∨ p ∈ u := by
  intro p hp
  rw [← h.withoutUnderscores]
  by_cases hUnderscore : p = .scalar '_'
  · exact .inl hUnderscore
  · exact .inr (List.mem_filter.mpr ⟨hp, bne_iff_ne.mpr hUnderscore⟩)

theorem follows (h : Parted t u) (previous : Bool) :
    underscoresApart.follows previous t = true := by
  induction h generalizing previous with
  | last hp => simp [underscoresApart.follows, hp]
  | next hp _ ih => simp [underscoresApart.follows, hp, ih]
  | underscore hp _ ih =>
    simp only [underscoresApart.follows, beq_false_of_ne hp, Bool.false_and, Bool.not_false,
      Bool.true_and, BEq.rfl]
    exact ih true

theorem underscoresApart (h : Parted t u) : underscoresApart t = true := by
  rw [Numeral.underscoresApart, h.follows true, Bool.or_true]

/-- Without underscores only digits are left of groups. -/
theorem grouped (h : Parted t u) (hDigits : ∀ p ∈ u, p.isDigit = true) : Grouped t u := by
  induction h with
  | last _ => exact .last (hDigits _ (List.mem_singleton_self _))
  | next _ _ ih =>
    obtain ⟨hDigit, hDigits⟩ := List.forall_mem_cons.mp hDigits
    exact .digit hDigit (ih hDigits)
  | underscore _ _ ih =>
    obtain ⟨hDigit, hDigits⟩ := List.forall_mem_cons.mp hDigits
    exact .underscore hDigit (ih hDigits)

end Parted

/-- Underscores that stand apart part the text; one more may come before. -/
theorem exists_parted {t : Text} {previous : Bool}
    (hApart : underscoresApart.follows previous t = true) :
    previous = false ∧ t = [] ∨ ∃ gap rest, MaybeUnderscore gap ∧ (previous = true → gap = []) ∧
      t = gap ++ rest ∧ Parted rest (withoutUnderscores t) := by
  induction t generalizing previous with
  | nil =>
    rw [underscoresApart.follows, Bool.not_eq_true'] at hApart
    exact .inl ⟨hApart, rfl⟩
  | cons p t ih =>
    refine .inr ?_
    simp only [underscoresApart.follows, Bool.and_eq_true, Bool.not_eq_true'] at hApart
    obtain ⟨hHere, hApart⟩ := hApart
    by_cases hp : p = .scalar '_'
    · -- an underscore, after which something else stands
      subst hp
      have hPrevious : previous = false := hHere
      have hSame : withoutUnderscores (.scalar '_' :: t) = withoutUnderscores t := rfl
      rw [hSame]
      obtain ⟨hFalse, -⟩ | ⟨gap, rest, -, hGap, rfl, hRest⟩ := ih hApart
      · cases hFalse
      · obtain rfl := hGap rfl
        refine ⟨[.scalar '_'], rest, .inr rfl, ?_, rfl, hRest⟩
        -- two underscores do not stand next to each other
        intro hTrue
        rw [hPrevious] at hTrue
        cases hTrue
    · have hKeep : withoutUnderscores (p :: t) = p :: withoutUnderscores t :=
        List.filter_cons_of_pos (bne_iff_ne.mpr hp)
      rw [beq_false_of_ne hp] at hApart
      rw [hKeep]
      refine ⟨[], p :: t, .inl rfl, fun _ => rfl, rfl, ?_⟩
      obtain ⟨-, rfl⟩ | ⟨gap, rest, hGap, -, rfl, hRest⟩ := ih hApart
      · exact .last hp
      · rcases hGap with rfl | rfl
        · exact .next hp hRest
        · exact .underscore hp hRest

/-- A text in which underscores stand apart is parted by them. -/
theorem parted_of_underscoresApart {t : Text} (hApart : underscoresApart t = true) (h : t ≠ []) :
    Parted t (withoutUnderscores t) := by
  have hFollows : underscoresApart.follows true t = true := by
    rwa [underscoresApart, List.isEmpty_eq_false_iff.mpr h, Bool.false_or] at hApart
  obtain ⟨hFalse, -⟩ | ⟨gap, rest, -, hGap, hText, hParted⟩ := exists_parted hFollows
  · cases hFalse
  · obtain rfl := hGap rfl
    obtain rfl : t = rest := hText
    exact hParted

theorem Grouped.parted {t digits : Text} (h : Grouped t digits) : Parted t digits := by
  have hNot : ∀ {p : CodePoint}, p.isDigit = true → p ≠ .scalar '_' := by
    rintro p hp rfl
    cases hp
  induction h with
  | last hp => exact .last (hNot hp)
  | digit hp _ ih => exact .next (hNot hp) ih
  | underscore hp _ ih => exact .underscore (hNot hp) ih

theorem Grouped.dropUnderscores {t digits : Text} (h : Grouped t digits) :
    dropUnderscores t = digits := by
  rw [Numeral.dropUnderscores, if_pos h.parted.underscoresApart, h.parted.withoutUnderscores]

/-- Underscores that stand apart between digits make groups of them; one more may come before. -/
theorem exists_grouped {t : Text} {previous : Bool}
    (hApart : underscoresApart.follows previous t = true)
    (hDigits : ∀ p ∈ withoutUnderscores t, p.isDigit = true) :
    previous = false ∧ t = [] ∨ ∃ gap rest, MaybeUnderscore gap ∧ (previous = true → gap = []) ∧
      t = gap ++ rest ∧ Grouped rest (withoutUnderscores t) := by
  refine (exists_parted hApart).imp_right ?_
  rintro ⟨gap, rest, hGap, hFirst, hText, hParted⟩
  exact ⟨gap, rest, hGap, hFirst, hText, hParted.grouped hDigits⟩

theorem underscoresApart_of_not_mem {t : Text} (h : .scalar '_' ∉ t) :
    underscoresApart t = true := by
  have hFollows : ∀ u : Text, .scalar '_' ∉ u → underscoresApart.follows false u = true := by
    intro u
    induction u with
    | nil => exact fun _ => rfl
    | cons p u ih =>
      intro hu
      rw [List.mem_cons, not_or] at hu
      simp only [underscoresApart.follows, Bool.and_false, Bool.not_false, Bool.true_and,
        beq_false_of_ne (Ne.symm hu.1)]
      exact ih hu.2
  cases t with
  | nil => rfl
  | cons p t =>
    rw [List.mem_cons, not_or] at h
    simp only [underscoresApart, underscoresApart.follows, beq_false_of_ne (Ne.symm h.1),
      Bool.false_and, Bool.not_false, Bool.true_and, hFollows t h.2, Bool.or_true]

/-- Underscores that are gone stood apart. -/
theorem underscoresApart_of_dropped {t : Text} (h : .scalar '_' ∉ dropUnderscores t) :
    underscoresApart t = true := by
  by_contra hApart
  rw [dropUnderscores, if_neg hApart] at h
  exact hApart (underscoresApart_of_not_mem h)

/-! ## Plain integers -/

theorem hasNeedlessZero_eq_false_iff {digits : Text} :
    hasNeedlessZero digits = false ↔ Needful digits := by
  unfold hasNeedlessZero Needful
  split
  · next p q rest => simp [beq_eq_false_iff_ne]
  · next hShort =>
    simp only [true_iff]
    intro hHead
    obtain ⟨tail, rfl⟩ := List.head?_eq_some_iff.mp hHead
    cases tail with
    | nil => rfl
    | cons q rest => exact absurd rfl (hShort _ q rest)

/-- A plain integer is a sign and digits, none of them needless, and no more than are read. -/
theorem plainInteger_eq_ok_iff {t : Text} {n : Int} :
    plainInteger t = .ok n ↔ ∃ sign negative digits, Sign sign negative ∧ t = sign ++ digits ∧
      digits ≠ [] ∧ (∀ p ∈ digits, p.isDigit = true) ∧ Needful digits ∧
      digits.length ≤ digitLimit ∧ n = signed negative (Text.digitsValue digits) := by
  constructor
  · intro h
    obtain ⟨sign, hSign, hText⟩ := exists_sign t
    have hParts : (splitDigits (splitSign t).2).1 ++ (splitDigits (splitSign t).2).2 =
        (splitSign t).2 := List.takeWhile_append_dropWhile
    -- what is read has passed three checks
    unfold plainInteger at h
    dsimp only at h
    split at h
    · cases h
    next hNeedless =>
    split at h
    · cases h
    next hLimit =>
    split at h
    · cases h
    next hPlain =>
    rw [Bool.or_eq_true, not_or, List.isEmpty_iff, Bool.not_eq_true', Bool.not_eq_false,
      List.isEmpty_iff] at hPlain
    obtain ⟨hNonempty, hRest⟩ := hPlain
    rw [hRest, List.append_nil] at hParts
    refine ⟨sign, (splitSign t).1, (splitDigits (splitSign t).2).1, hSign, ?_, hNonempty,
      fun p hp => List.mem_takeWhile_imp hp,
      hasNeedlessZero_eq_false_iff.mp (Bool.eq_false_iff.mpr hNeedless), Nat.le_of_not_lt hLimit,
      (Except.ok.inj h).symm⟩
    rw [hParts]
    exact hText
  · rintro ⟨sign, negative, digits, hSign, rfl, hNonempty, hDigits, hNeedful, hLimit, rfl⟩
    -- the digits go on to the end of the text
    have hSplit : splitDigits (digits ++ []) = (digits, []) := splitDigits_append hDigits nofun
    rw [List.append_nil] at hSplit
    unfold plainInteger
    rw [splitSign_append hSign fun p hp => hDigits p (List.mem_of_mem_head? hp)]
    dsimp only
    rw [hSplit, hasNeedlessZero_eq_false_iff.mpr hNeedful, if_neg Bool.false_ne_true,
      if_neg (Nat.not_lt.mpr hLimit)]
    simp [hNonempty]

/-- A plain integer has neither a point nor an underscore. -/
theorem not_mem_of_plainInteger {t : Text} {n : Int} (h : plainInteger t = .ok n) {p : CodePoint}
    (hDigit : p.isDigit = false) (hPlus : p ≠ .scalar '+') (hMinus : p ≠ .scalar '-') : p ∉ t := by
  obtain ⟨sign, negative, digits, hSign, rfl, -, hDigits, -⟩ := plainInteger_eq_ok_iff.mp h
  intro hMem
  rcases List.mem_append.mp hMem with hMem | hMem
  · cases hSign with
    | none => cases hMem
    | plus => exact hPlus (List.mem_singleton.mp hMem)
    | minus => exact hMinus (List.mem_singleton.mp hMem)
  · rw [hDigits p hMem] at hDigit
    cases hDigit
end Numeral

end OscMonitor
