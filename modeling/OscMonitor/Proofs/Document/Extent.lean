import OscMonitor.Document.Token

/-!
# What a token takes

Every token that can be read is spelled by the code points it takes from the text, and the
spelling shows what kind of token it is: a bracket or separator is one code point, a text stands
between quotes in which each backslash takes the next code point with it, and a scalar holds no
bracket and no quote at all. Halves of surrogate pairs stand only between quotes, and what is read
there has them too.

* `Spelled` — the spellings of tokens.
* `scanToken_spelled` — a token that can be read takes its spelling and leaves the rest.
* `isScalar_of_scanText` — a text without halves is spelled without them.
-/

namespace OscMonitor

/-- Whether a value holds no other values. -/
def Value.IsLeaf : Value → Prop
  | .list _ | .object _ => False
  | _ => True

/-- Whether a token can be read. -/
def Token.IsGood : Token → Prop
  | .badText _ | .badScalar _ => False
  | _ => True

namespace Lexeme

/-- Whether a code point is a character but no quote and no bracket. -/
def isPlain (p : CodePoint) : Bool :=
  p.isScalar && !(p == .scalar '"' || p == .scalar '[' || p == .scalar ']' || p == .scalar '{' ||
    p == .scalar '}')

/-- What may stand between the quotes of a text. -/
inductive Literal : Text → Prop where
  | nil : Literal []
  | plain {p : CodePoint} {w : Text} (hQuote : p ≠ .scalar '"') (hBackslash : p ≠ .scalar '\\') :
      Literal w → Literal (p :: w)
  | escaped {p : CodePoint} {w : Text} : Literal w → Literal (.scalar '\\' :: p :: w)

/-- The spellings of tokens. -/
inductive Spelled : Token → Text → Prop where
  | openList : Spelled .openList [.scalar '[']
  | closeList : Spelled .closeList [.scalar ']']
  | openObject : Spelled .openObject [.scalar '{']
  | closeObject : Spelled .closeObject [.scalar '}']
  | comma : Spelled .comma [.scalar ',']
  | colon : Spelled .colon [.scalar ':']
  | text {t w : Text} : Literal w → Spelled (.text t) (.scalar '"' :: (w ++ [.scalar '"']))
  | scalar {v : Value} {w : Text} (hLeaf : v.IsLeaf) (hPlain : ∀ p ∈ w, isPlain p = true) :
      Spelled (.scalar v) w

/-! ## Texts -/

theorem Literal.append {w w' : Text} (h : Literal w) (h' : Literal w') : Literal (w ++ w') := by
  induction h with
  | nil => exact h'
  | plain hQuote hBackslash _ ih => exact .plain hQuote hBackslash ih
  | escaped _ ih => exact .escaped ih

/-- What an escape takes after its letter: characters that do not end the text. -/
structure IsTail (w : Text) : Prop where
  literal : Literal w
  scalar : ∀ p ∈ w, p.isScalar = true

theorem IsTail.append {w w' : Text} (h : IsTail w) (h' : IsTail w') : IsTail (w ++ w') :=
  ⟨h.literal.append h'.literal, List.forall_mem_append.mpr ⟨h.scalar, h'.scalar⟩⟩

theorem isTail_of_hexDigit? {p : CodePoint} {n : Nat} (h : p.hexDigit? = some n) : IsTail [p] := by
  match p with
  | .surrogate _ => cases h
  | .scalar c =>
    refine ⟨.plain ?_ ?_ .nil, List.forall_mem_singleton.mpr rfl⟩
    · rintro ⟨rfl⟩
      cases h
    · rintro ⟨rfl⟩
      cases h

theorem isTail_of_hexQuad? {a b c d : CodePoint} {n : Nat} (h : hexQuad? a b c d = some n) :
    IsTail [a, b, c, d] := by
  simp only [hexQuad?, Option.bind_eq_bind, Option.bind_eq_some_iff] at h
  obtain ⟨x, ha, y, hb, z, hc, u, hd, -⟩ := h
  exact (((isTail_of_hexDigit? ha).append (isTail_of_hexDigit? hb)).append
    (isTail_of_hexDigit? hc)).append (isTail_of_hexDigit? hd)

theorem lowHalf?_tail {t rest : Text} {n : Nat} (h : lowHalf? t = some (n, rest)) :
    ∃ w, t = w ++ rest ∧ IsTail w := by
  unfold lowHalf? at h
  split at h
  · -- a backslash and a letter, and four digits
    next a b c d p rest' =>
    simp only [Option.bind_eq_bind, Option.bind_eq_some_iff, Option.ite_none_right_eq_some] at h
    obtain ⟨m, hQuad, -, h⟩ := h
    simp only [Option.some.injEq, Prod.mk.injEq] at h
    obtain ⟨-, rfl⟩ := h
    have hDigits := isTail_of_hexQuad? hQuad
    exact ⟨_ :: _ :: [a, b, c, d], rfl, .escaped hDigits.literal,
      List.forall_mem_cons.mpr ⟨rfl, List.forall_mem_cons.mpr ⟨rfl, hDigits.scalar⟩⟩⟩
  · cases h

theorem unicodeEscape_tail {t rest : Text} {p : CodePoint}
    (h : unicodeEscape t = .ok (p, rest)) : ∃ w, t = w ++ rest ∧ IsTail w := by
  unfold unicodeEscape at h
  split at h
  · next a b c d q tail =>
    split at h
    · cases h
    · next n hQuad =>
      have hDigits := isTail_of_hexQuad? hQuad
      split at h
      · -- a high half takes a low one with it, if there is one
        split at h
        · next low rest' hLow =>
          obtain ⟨w, hw, hTail⟩ := lowHalf?_tail hLow
          simp only [Except.ok.injEq, Prod.mk.injEq] at h
          obtain ⟨-, rfl⟩ := h
          exact ⟨[a, b, c, d] ++ w, by rw [List.append_assoc, ← hw]; rfl, hDigits.append hTail⟩
        · simp only [Except.ok.injEq, Prod.mk.injEq] at h
          obtain ⟨-, rfl⟩ := h
          exact ⟨_, rfl, hDigits⟩
      · simp only [Except.ok.injEq, Prod.mk.injEq] at h
        obtain ⟨-, rfl⟩ := h
        exact ⟨_, rfl, hDigits⟩
  · cases h

theorem escape_tail {p q : CodePoint} {t rest : Text} (h : escape p t = .ok (q, rest)) :
    p.isScalar = true ∧ ∃ w, t = w ++ rest ∧ IsTail w := by
  unfold escape at h
  split at h
  · next hUnicode =>
    subst hUnicode
    exact ⟨rfl, unicodeEscape_tail h⟩
  · split at h
    · next c hEscape =>
      simp only [Except.ok.injEq, Prod.mk.injEq] at h
      obtain ⟨-, rfl⟩ := h
      match p with
      | .surrogate _ => cases hEscape
      | .scalar _ => exact ⟨rfl, [], rfl, .nil, nofun⟩
    · cases h

/-- A text ends at the first quote that no backslash takes with it. -/
theorem scanText_literal {start read t r rest : Text}
    (h : scanText start read t = .ok (r, rest)) :
    ∃ w, t = w ++ .scalar '"' :: rest ∧ Literal w := by
  -- induction on the scan: an escape or a plain code point is taken, then the rest is scanned
  fun_induction scanText start read t with
  | case1 => cases h
  | case2 =>
    simp only [Except.ok.injEq, Prod.mk.injEq] at h
    obtain ⟨-, rfl⟩ := h
    exact ⟨[], rfl, .nil⟩
  | case3 => cases h
  | case4 read p rest' q rest'' hEscape hQuote ih =>
    obtain ⟨w, rfl, hw⟩ := ih h
    obtain ⟨-, u, rfl, hu⟩ := escape_tail hEscape
    exact ⟨_ :: p :: (u ++ w), by simp, .escaped (hu.literal.append hw)⟩
  | case5 => cases h
  | case6 => cases h
  | case7 read p rest' hQuote hBackslash hControl ih =>
    obtain ⟨w, rfl, hw⟩ := ih h
    exact ⟨p :: w, rfl, .plain hQuote hBackslash hw⟩

/-- What is read between quotes without halves of surrogate pairs is spelled without them: an escape
has none, and other code points are read as they are. -/
theorem isScalar_of_scanText {start read t r rest : Text}
    (h : scanText start read t = .ok (r, rest)) (hRead : ∀ p ∈ r, p.isScalar = true) :
    (∀ p ∈ read, p.isScalar = true) ∧ ∃ w, t = w ++ rest ∧ ∀ p ∈ w, p.isScalar = true := by
  -- induction on the scan: what is in front of the rest is in what has been read
  fun_induction scanText start read t with
  | case1 => cases h
  | case2 =>
    simp only [Except.ok.injEq, Prod.mk.injEq] at h
    obtain ⟨rfl, rfl⟩ := h
    exact ⟨fun p hp => hRead p (List.mem_reverse.mpr hp), [.scalar '"'], rfl,
      List.forall_mem_singleton.mpr rfl⟩
  | case3 => cases h
  | case4 read p rest' q rest'' hEscape hQuote ih =>
    obtain ⟨hFirst, w, rfl, hw⟩ := ih h
    obtain ⟨hp, u, rfl, hu⟩ := escape_tail hEscape
    refine ⟨(List.forall_mem_cons.mp hFirst).2, .scalar '\\' :: p :: (u ++ w), by simp, ?_⟩
    exact List.forall_mem_cons.mpr ⟨rfl, List.forall_mem_cons.mpr
      ⟨hp, List.forall_mem_append.mpr ⟨hu.scalar, hw⟩⟩⟩
  | case5 => cases h
  | case6 => cases h
  | case7 read p rest' hQuote hBackslash hControl ih =>
    obtain ⟨hFirst, w, rfl, hw⟩ := ih h
    obtain ⟨hp, hBefore⟩ := List.forall_mem_cons.mp hFirst
    exact ⟨hBefore, p :: w, rfl, List.forall_mem_cons.mpr ⟨hp, hw⟩⟩

/-! ## Scalars -/

/-- What remains of a text when plain code points are taken from its front. -/
def LeavesPlain (t rest : Text) : Prop := ∃ w, t = w ++ rest ∧ ∀ p ∈ w, isPlain p = true

namespace LeavesPlain

theorem refl (t : Text) : LeavesPlain t t := ⟨[], rfl, fun _ h => by cases h⟩

theorem trans {t t' t'' : Text} (h : LeavesPlain t t') (h' : LeavesPlain t' t'') :
    LeavesPlain t t'' := by
  obtain ⟨w, rfl, hw⟩ := h
  obtain ⟨w', rfl, hw'⟩ := h'
  refine ⟨w ++ w', by rw [List.append_assoc], fun p hp => ?_⟩
  rcases List.mem_append.mp hp with hp | hp
  · exact hw p hp
  · exact hw' p hp

theorem cons {p : CodePoint} {t rest : Text} (hp : isPlain p = true) (h : LeavesPlain t rest) :
    LeavesPlain (p :: t) rest :=
  trans ⟨[p], rfl, fun _ hq => by rwa [List.mem_singleton.mp hq]⟩ h

end LeavesPlain

theorem isScalar_of_isPlain {p : CodePoint} (h : isPlain p = true) : p.isScalar = true :=
  (Bool.and_eq_true_iff.mp h).1

theorem isPlain_of_isDigit {p : CodePoint} (h : p.isDigit = true) : isPlain p = true := by
  match p with
  | .surrogate _ => cases h
  | .scalar c =>
    simp only [isPlain, Bool.and_eq_true, Bool.not_eq_true', Bool.or_eq_false_iff,
      beq_eq_false_iff_ne]
    refine ⟨rfl, ⟨⟨⟨?_, ?_⟩, ?_⟩, ?_⟩, ?_⟩ <;> (rintro ⟨rfl⟩; cases h)

theorem splitDigits_leavesPlain (t : Text) : LeavesPlain t (Numeral.splitDigits t).2 :=
  ⟨(Numeral.splitDigits t).1, (splitDigits_append t).symm,
    fun _ hp => isPlain_of_isDigit (List.all_eq_true.mp List.all_takeWhile _ hp)⟩

theorem splitSign_leavesPlain (t : Text) : LeavesPlain t (Numeral.splitSign t).2 := by
  unfold Numeral.splitSign
  split
  · exact .cons (by decide) (.refl _)
  · exact .cons (by decide) (.refl _)
  · exact .refl _

theorem splitExponent?_leavesPlain {t rest : Text} {e : Int}
    (h : Numeral.splitExponent? t = some (e, rest)) : LeavesPlain t rest := by
  unfold Numeral.splitExponent? at h
  split at h
  · next c tail =>
    split at h
    · next hLetter =>
      have hSign := splitSign_leavesPlain tail
      have hDigits := splitDigits_leavesPlain (Numeral.splitSign tail).2
      simp only at h
      split at h
      · cases h
      · next heq =>
        rw [heq] at hDigits
        simp only [Option.some.injEq, Prod.mk.injEq] at h
        obtain ⟨-, rfl⟩ := h
        refine .cons ?_ (hSign.trans hDigits)
        rcases hLetter with rfl | rfl <;> decide
    · cases h
  · cases h

theorem splitWhole?_leavesPlain {t whole rest : Text} (h : splitWhole? t = some (whole, rest)) :
    LeavesPlain t rest := by
  unfold splitWhole? at h
  split at h
  · simp only [Option.some.injEq, Prod.mk.injEq] at h
    obtain ⟨-, rfl⟩ := h
    exact .cons (by decide) (.refl _)
  · have hDigits := splitDigits_leavesPlain t
    split at h
    · cases h
    · next heq =>
      rw [heq] at hDigits
      simp only [Option.some.injEq, Prod.mk.injEq] at h
      obtain ⟨-, rfl⟩ := h
      exact hDigits

theorem splitFraction_leavesPlain (t : Text) : LeavesPlain t (splitFraction t).2 := by
  unfold splitFraction
  split
  · next rest =>
    have hDigits := splitDigits_leavesPlain rest
    split
    · exact .refl _
    · next heq =>
      rw [heq] at hDigits
      exact .cons (by decide) hDigits
  · exact .refl _

theorem scanNumber?_token {negative : Bool} {t rest : Text} {token : Token}
    (h : scanNumber? negative t = some (token, rest)) :
    LeavesPlain t rest ∧
      ((∃ v : Value, token = .scalar v ∧ v.IsLeaf) ∨ ∃ fault, token = .badScalar fault) := by
  unfold scanNumber? at h
  simp only [Option.bind_eq_bind, Option.bind_eq_some_iff] at h
  obtain ⟨⟨whole, tail⟩, hw, h⟩ := h
  have hWhole := (splitWhole?_leavesPlain hw).trans (splitFraction_leavesPlain tail)
  -- integers come first, too long ones among them, and then the doubles
  simp only at h
  split at h
  · split at h
    · simp only [Option.some.injEq, Prod.mk.injEq] at h
      obtain ⟨rfl, rfl⟩ := h
      exact ⟨hWhole, .inr ⟨_, rfl⟩⟩
    · simp only [Option.some.injEq, Prod.mk.injEq] at h
      obtain ⟨rfl, rfl⟩ := h
      exact ⟨hWhole, .inl ⟨_, rfl, trivial⟩⟩
  · simp only [Option.some.injEq, Prod.mk.injEq] at h
    obtain ⟨rfl, rfl⟩ := h
    exact ⟨hWhole, .inl ⟨_, rfl, trivial⟩⟩
  · next hExponent =>
    simp only [Option.some.injEq, Prod.mk.injEq] at h
    obtain ⟨rfl, rfl⟩ := h
    exact ⟨hWhole.trans (splitExponent?_leavesPlain hExponent), .inl ⟨_, rfl, trivial⟩⟩

theorem scanWord?_token {t rest : Text} {token : Token} (h : scanWord? t = some (token, rest)) :
    LeavesPlain t rest ∧ ∃ v : Value, token = .scalar v ∧ v.IsLeaf := by
  unfold scanWord? at h
  obtain ⟨⟨word, v⟩, hMem, h⟩ := List.exists_of_findSome?_eq_some h
  simp only [Option.ite_none_right_eq_some, Option.some.injEq, Prod.mk.injEq] at h
  obtain ⟨hStart, rfl, rfl⟩ := h
  obtain ⟨tail, rfl⟩ := List.isPrefixOf_iff_prefix.mp hStart
  -- what holds of each of the few words holds of the one that was found
  have hPlain : ∀ w ∈ words, ∀ p ∈ w.1, isPlain p = true := by decide
  have hLeaf : ∀ w ∈ words, w.2.IsLeaf := by simp [words, Value.IsLeaf]
  refine ⟨⟨word, ?_, hPlain _ hMem⟩, v, rfl, hLeaf _ hMem⟩
  rw [List.drop_left]

theorem scanScalar?_token {t rest : Text} {token : Token}
    (h : scanScalar? t = some (token, rest)) :
    LeavesPlain t rest ∧
      ((∃ v : Value, token = .scalar v ∧ v.IsLeaf) ∨ ∃ fault, token = .badScalar fault) := by
  unfold scanScalar? at h
  split at h
  · next found hFound =>
    obtain rfl := Option.some.inj h
    obtain ⟨hRest, hToken⟩ := scanWord?_token hFound
    exact ⟨hRest, .inl hToken⟩
  · split at h
    · obtain ⟨hRest, hToken⟩ := scanNumber?_token h
      exact ⟨.cons (by decide) hRest, hToken⟩
    · exact scanNumber?_token h

/-! ## All tokens -/

/-- A token that can be read takes its spelling, which is not empty, and leaves the rest. -/
theorem scanToken_spelled {p : CodePoint} {t rest : Text} {token : Token}
    (h : scanToken p t = (token, rest)) (hGood : token.IsGood) :
    ∃ w, t = w ++ rest ∧ Spelled token (p :: w) := by
  unfold scanToken at h
  split at h
  case h_7 =>
    -- a quote: what follows is a text
    split at h
    · next hText =>
      obtain ⟨w, rfl, hLiteral⟩ := scanText_literal hText
      obtain ⟨rfl, rfl⟩ := Prod.mk.inj h
      exact ⟨w ++ [.scalar '"'], by simp, .text hLiteral⟩
    · obtain ⟨rfl, rfl⟩ := Prod.mk.inj h
      exact hGood.elim
  case h_8 =>
    -- no bracket, separator or quote: what stands here can only be a scalar
    split at h
    · next found hFound =>
      subst h
      obtain ⟨⟨w, hw, hPlain⟩, ⟨v, rfl, hLeaf⟩ | ⟨fault, rfl⟩⟩ := scanScalar?_token hFound
      · cases w with
        | nil =>
          -- a scalar takes at least one code point
          have hLength := scanScalar?_length hFound
          rw [hw] at hLength
          exact absurd hLength (Nat.lt_irrefl _)
        | cons q w =>
          obtain ⟨rfl, rfl⟩ := List.cons.inj hw
          exact ⟨w, rfl, .scalar hLeaf hPlain⟩
      · exact hGood.elim
    · obtain ⟨rfl, rfl⟩ := Prod.mk.inj h
      exact hGood.elim
  all_goals
    obtain ⟨rfl, rfl⟩ := Prod.mk.inj h
    exact ⟨[], rfl, by constructor⟩

end Lexeme

end OscMonitor
