import OscMonitor.Proofs.Document.Quotes
import OscMonitor.Proofs.Number.Digits
import OscMonitor.Text.Encoding

/-!
# Printed documents are ASCII

Every code point of a printed value is ASCII: brackets and separators are, numbers and words are,
and what is not ASCII in a text is escaped. So a printed value is made of characters, though its
texts may hold halves of surrogate pairs. Controls are escaped as well, so with a space after each
comma and colon there is no control in what is printed, and no line end.

* `Text.Within` — a range of numbers for the code points of a text.
* `Separators.IsPlain` — a comma and a colon, with nothing but gaps after them.
* `Value.within_print` — the range of what is printed, for every value.
* `Value.isAscii_print` — what is printed is ASCII.
* `Text.IsAscii.exists_chars` — ASCII text is made of characters.
* `Encoding.takes_of_isAscii` — every stream takes it.
-/

namespace OscMonitor

open Lexeme

/-- Every code point has a number from `low` on and below `high`. -/
def Text.Within (low high : Nat) (t : Text) : Prop := ∀ p ∈ t, low ≤ p.number ∧ p.number < high

instance (low high : Nat) (t : Text) : Decidable (t.Within low high) :=
  inferInstanceAs (Decidable (∀ p ∈ t, low ≤ p.number ∧ p.number < high))

/-- ASCII throughout. -/
def Text.IsAscii (t : Text) : Prop := ∀ p ∈ t, p.number < 0x80

instance (t : Text) : Decidable t.IsAscii := inferInstanceAs (Decidable (∀ p ∈ t, p.number < 0x80))

namespace Text.Within

variable {low high : Nat} {s t : Text}

theorem nil : Within low high [] := nofun

theorem cons {p : CodePoint} (hp : low ≤ p.number ∧ p.number < high) (ht : t.Within low high) :
    Within low high (p :: t) :=
  List.forall_mem_cons.mpr ⟨hp, ht⟩

theorem append (hs : s.Within low high) (ht : t.Within low high) : Within low high (s ++ t) :=
  List.forall_mem_append.mpr ⟨hs, ht⟩

theorem replicate {p : CodePoint} (hp : low ≤ p.number ∧ p.number < high) (n : Nat) :
    Within low high (List.replicate n p) := by
  intro q hq
  rw [List.eq_of_mem_replicate hq]
  exact hp

theorem take (h : t.Within low high) (n : Nat) : Within low high (t.take n) :=
  fun p hp => h p (List.mem_of_mem_take hp)

theorem drop (h : t.Within low high) (n : Nat) : Within low high (t.drop n) :=
  fun p hp => h p (List.mem_of_mem_drop hp)

/-- A wider range. -/
theorem mono (h : t.Within low high) {low' high' : Nat} (hLow : low' ≤ low) (hHigh : high ≤ high') :
    t.Within low' high' :=
  fun p hp => ⟨hLow.trans (h p hp).1, (h p hp).2.trans_le hHigh⟩

theorem isAscii (h : t.Within low 0x80) : t.IsAscii := fun p hp => (h p hp).2

end Text.Within

/-- Every stream takes ASCII text. -/
theorem Encoding.takes_of_isAscii (e : Encoding) {t : Text} (h : t.IsAscii) : e.takes t = true :=
  takes_iff.mpr fun p hp => e.ascii p (h p hp)

/-- ASCII text is made of characters. -/
theorem Text.IsAscii.exists_chars {t : Text} (h : t.IsAscii) :
    ∃ cs : List Char, t = cs.map .scalar := by
  induction t with
  | nil => exact ⟨[], rfl⟩
  | cons p t ih =>
    obtain ⟨hp, ht⟩ := List.forall_mem_cons.mp h
    obtain ⟨cs, rfl⟩ := ih ht
    cases p with
    | scalar c => exact ⟨c :: cs, rfl⟩
    | surrogate offset =>
      simp only [CodePoint.number] at hp
      omega

/-! ## Numbers -/

/-- The range of what numbers and the words for them are made of: signs, the point, digits and
letters. -/
abbrev Text.IsWord (t : Text) : Prop := t.Within 0x2B 0x7B

theorem Text.isWord_ofNat (n : Nat) : (ofNat n).IsWord := by
  intro p hp
  have hDigit := isDigit_of_mem_ofNat hp
  cases p with
  | surrogate offset => cases hDigit
  | scalar c =>
    rw [CodePoint.isDigit_scalar] at hDigit
    simp only [Char.isDigit, Bool.and_eq_true, decide_eq_true_eq] at hDigit
    have hZero : 48 ≤ c.toNat := hDigit.1
    have hNine : c.toNat ≤ 57 := hDigit.2
    simp only [CodePoint.number]
    omega

theorem Text.isWord_ofInt (n : Int) : (ofInt n).IsWord := by
  cases n with
  | ofNat n => exact isWord_ofNat n
  | negSucc n => exact .cons (by decide) (isWord_ofNat (n + 1))

theorem Layout.isWord_writeExponent (l : Layout) (e : Int) : (l.writeExponent e).IsWord := by
  refine .cons (by decide) (.cons ?_ (.append (.replicate (by decide) _) (Text.isWord_ofNat _)))
  split <;> decide

theorem Layout.isWord_write (l : Layout) (d : Decimal) : (l.write d).IsWord := by
  have hDigits := Text.isWord_ofNat d.digits
  have hPoint : Text.IsWord "." := by decide
  unfold write
  dsimp only
  split
  · decide
  split
  · split
    · exact .append (.append hDigits (.replicate (by decide) _)) (by decide)
    split
    · exact .append (.append (hDigits.take _) hPoint) (hDigits.drop _)
    · exact .append (.append (by decide) (.replicate (by decide) _)) hDigits
  · split
    · exact .nil
    · next p hEq =>
      rw [hEq] at hDigits
      exact .append hDigits (isWord_writeExponent l _)
    · next p tail _ hEq =>
      rw [hEq] at hDigits
      obtain ⟨hp, hTail⟩ := List.forall_mem_cons.mp hDigits
      exact .cons hp (.cons (by decide) (.append hTail (isWord_writeExponent l _)))

theorem Double.isWord_signText (negative : Bool) : (signText negative).IsWord := by
  cases negative <;> decide

/-- The same whether or not a double is printed or listed: only the words differ. -/
theorem Double.isWord_text (x : Double) : x.text.IsWord := by
  cases x with
  | nan => decide
  | infinite negative => exact .append (isWord_signText negative) (by decide)
  | finite negative m e h => exact .append (isWord_signText negative) (Layout.isWord_write _ _)

theorem isWord_printDouble (x : Double) : (printDouble x).IsWord := by
  cases x with
  | nan => decide
  | infinite negative => exact .append (Double.isWord_signText negative) (by decide)
  | finite negative m e h => exact Double.isWord_text (.finite negative m e h)

/-! ## Texts between quotes -/

/-- The range of what stands between quotes: ASCII without controls. -/
abbrev Text.IsVisible (t : Text) : Prop := t.Within 0x20 0x80

theorem isVisible_escapeUnit (n : Nat) : (escapeUnit n).IsVisible := by
  have hDigit : ∀ d < 16, 0x20 ≤ (CodePoint.scalar (Nat.digitChar d)).number ∧
      (CodePoint.scalar (Nat.digitChar d)).number < 0x80 := by decide
  have hMod : ∀ m, 0x20 ≤ (CodePoint.scalar (Nat.digitChar (m % 16))).number ∧
      (CodePoint.scalar (Nat.digitChar (m % 16))).number < 0x80 := fun m =>
    hDigit _ (Nat.mod_lt _ (by decide))
  exact .cons (by decide) (.cons (by decide)
    (.cons (hMod _) (.cons (hMod _) (.cons (hMod _) (.cons (hMod _) .nil)))))

theorem isVisible_simpleEscape {p : CodePoint} {c : Char} (h : simpleEscape? p = some c) :
    0x20 ≤ p.number ∧ p.number < 0x80 := by
  unfold simpleEscape? at h
  split at h
  case h_9 => cases h
  all_goals decide

theorem isVisible_printPoint (p : CodePoint) : (printPoint p).IsVisible := by
  have hPrinted := printed_printPoint p
  generalize printPoint p = w at hPrinted
  cases hPrinted with
  | letter _ hEscape => exact .cons (by decide) (.cons (isVisible_simpleEscape hEscape) .nil)
  | plain _ _ hControl hAscii => exact .cons ⟨hControl, hAscii⟩ .nil
  | unit _ => exact isVisible_escapeUnit _
  | pair _ _ => exact .append (isVisible_escapeUnit _) (isVisible_escapeUnit _)

theorem isVisible_printText (t : Text) : (printText t).IsVisible := by
  refine .append (.append (by decide) fun q hq => ?_) (by decide)
  obtain ⟨p, -, hq⟩ := List.mem_flatMap.mp hq
  exact isVisible_printPoint p q hq

/-! ## Separators -/

/-- A sign with nothing but gaps after it. -/
def Text.IsSpaced (c : Char) (t : Text) : Prop :=
  ∃ gaps, t = .scalar c :: gaps ∧ ∀ p ∈ gaps, isGap p = true

/-- A comma and a colon, each with nothing but gaps after it. -/
structure Separators.IsPlain (s : Separators) : Prop where
  item : Text.IsSpaced ',' s.item
  key : Text.IsSpaced ':' s.key

theorem Separators.isPlain_spaced : spaced.IsPlain :=
  ⟨⟨[.scalar ' '], rfl, by decide⟩, ⟨[.scalar ' '], rfl, by decide⟩⟩

theorem Separators.isPlain_compact : compact.IsPlain := ⟨⟨[], rfl, nofun⟩, ⟨[], rfl, nofun⟩⟩

theorem Text.IsSpaced.within {c : Char} {t : Text} (h : t.IsSpaced c) (hc : c.toNat < 0x80) :
    t.Within 0 0x80 := by
  obtain ⟨gaps, rfl, hGaps⟩ := h
  refine .cons ⟨Nat.zero_le _, hc⟩ fun p hp => ?_
  have hGap := hGaps p hp
  simp only [isGap, Bool.or_eq_true, beq_iff_eq] at hGap
  obtain ((rfl | rfl) | rfl) | rfl := hGap <;> decide

/-! ## Values -/

namespace Value

section Range

variable {s : Separators} {low : Nat}

theorem within_printMember (hLow : low ≤ 0x20) (hKey : Text.Within low 0x80 s.key) (key : Text)
    {v : Value} (hv : (v.print s).Within low 0x80) :
    Text.Within low 0x80 (printText key ++ s.key ++ v.print s) :=
  .append (.append ((isVisible_printText key).mono hLow le_rfl) hKey) hv

mutual

/-- What is printed is ASCII, and has a control only where a separator has one. -/
theorem within_print (hLow : low ≤ 0x20) (hItem : Text.Within low 0x80 s.item)
    (hKey : Text.Within low 0x80 s.key) : ∀ v : Value, (v.print s).Within low 0x80
  | null => Text.Within.mono (show Text.IsVisible "null" by decide) hLow le_rfl
  | bool true => Text.Within.mono (show Text.IsVisible "true" by decide) hLow le_rfl
  | bool false => Text.Within.mono (show Text.IsVisible "false" by decide) hLow le_rfl
  | int n => (Text.isWord_ofInt n).mono (hLow.trans (by decide)) (by decide)
  | float x => (isWord_printDouble x).mono (hLow.trans (by decide)) (by decide)
  | text t => (isVisible_printText t).mono hLow le_rfl
  | list items =>
    .append (.append (Text.Within.mono (show Text.IsVisible "[" by decide) hLow le_rfl)
      (within_printItems hLow hItem hKey items))
      (Text.Within.mono (show Text.IsVisible "]" by decide) hLow le_rfl)
  | object members =>
    .append (.append (Text.Within.mono (show Text.IsVisible "\x7b" by decide) hLow le_rfl)
      (within_printMembers hLow hItem hKey members))
      (Text.Within.mono (show Text.IsVisible "\x7d" by decide) hLow le_rfl)

theorem within_printItems (hLow : low ≤ 0x20) (hItem : Text.Within low 0x80 s.item)
    (hKey : Text.Within low 0x80 s.key) :
    ∀ items : List Value, (printItems s items).Within low 0x80
  | [] => .nil
  | [v] => within_print hLow hItem hKey v
  | v :: w :: items =>
    .append (.append (within_print hLow hItem hKey v) hItem)
      (within_printItems hLow hItem hKey (w :: items))

theorem within_printMembers (hLow : low ≤ 0x20) (hItem : Text.Within low 0x80 s.item)
    (hKey : Text.Within low 0x80 s.key) :
    ∀ members : List (Text × Value), (printMembers s members).Within low 0x80
  | [] => .nil
  | [(key, v)] => within_printMember hLow hKey key (within_print hLow hItem hKey v)
  | (key, v) :: m :: members =>
    .append (.append (within_printMember hLow hKey key (within_print hLow hItem hKey v)) hItem)
      (within_printMembers hLow hItem hKey (m :: members))

end

end Range

/-- What is printed is ASCII. -/
theorem isAscii_print {s : Separators} (hPlain : s.IsPlain) (v : Value) : (v.print s).IsAscii :=
  (within_print (Nat.zero_le _) (hPlain.item.within (by decide)) (hPlain.key.within (by decide))
    v).isAscii

/-- What is printed with spaces has no control in it. -/
theorem isVisible_spaced (v : Value) : v.spaced.IsVisible :=
  within_print le_rfl (by decide) (by decide) v

end Value

end OscMonitor
