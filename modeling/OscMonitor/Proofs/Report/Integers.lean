import OscMonitor.Proofs.Number.Reading
import OscMonitor.Proofs.Number.Value
import OscMonitor.Proofs.Report.Limits

/-!
# Integers of a report

An integer may be written in a reply as an integer, as a double without a fraction, or as text.
However it is written, a field takes exactly the integer that is denoted, or it takes nothing:
nothing is rounded, cut off or wrapped around. A field that counts takes no negative integer.

Main results:

* `Value.Denotes`, `Value.Denotes.unique` — the integer that a value denotes, which is one.
* `Accept.integerDouble_eq_ok_iff`, `Accept.integerText_eq_ok_iff` — which doubles and texts are
  taken as an integer.
* `Report.integers_exact` — what the integer fields of a report are.
-/

namespace OscMonitor

/-! ## What a value denotes -/

namespace Value

/-- The integer that a value denotes, where `Numerals` tells which texts stand for integers, by
their digits. -/
inductive Denotes (Numerals : Text → Text → Int → Prop) : Value → Int → Prop where
  | int (n : Int) : Denotes Numerals (.int n) n
  | float {x : Double} {n : Int} (h : x.value? = some (n : ℚ)) : Denotes Numerals (.float x) n
  | text {t digits : Text} {n : Int} (h : Numerals t digits n) : Denotes Numerals (.text t) n

/-- The ways to write an integer that are always taken. -/
inductive Writes : Value → Int → Prop where
  | int (n : Int) : Writes (.int n) n
  | float {x : Double} {n : Int} (h : x.value? = some (n : ℚ)) (hLeast : -2 ^ 63 < n)
    (hGreatest : n < 2 ^ 63) : Writes (.float x) n
  | digits {n : Int} (h : (Text.ofInt n).length ≤ 4300) : Writes (.text (Text.ofInt n)) n
  | numeral {t digits : Text} {n : Int} (h : Numeral.Usual t digits n)
    (hLimit : digits.length ≤ 4300) : Writes (.text t) n

/-- The values that are never taken as an integer: booleans, doubles with a fraction or that are not
finite, lists and objects. -/
inductive IsNoInteger : Value → Prop where
  | bool (b : Bool) : IsNoInteger (.bool b)
  | float {x : Double} (h : ∀ n : Int, x.value? ≠ some (n : ℚ)) : IsNoInteger (.float x)
  | list (items : List Value) : IsNoInteger (.list items)
  | object (o : Object) : IsNoInteger (.object o)

theorem Denotes.unique {v : Value} {m n : Int} (hm : v.Denotes Numeral.Spells m)
    (hn : v.Denotes Numeral.Spells n) : m = n := by
  cases hn with
  | int =>
    cases hm
    rfl
  | float hx =>
    obtain - | hx' := hm
    rw [hx, Option.some.injEq, Int.cast_inj] at hx'
    exact hx'.symm
  | text hSpells =>
    obtain - | - | hSpells' := hm
    exact hSpells.unique hSpells'

end Value

/-! ## Integers that are taken -/

theorem Numeral.IsMark.number_lt {p : CodePoint} (h : IsMark p) : p.number < 0xD800 := by
  rcases h with hDigit | hMem
  · obtain ⟨n, hn⟩ := Option.isSome_iff_exists.mp hDigit
    obtain ⟨c, rfl, hc, hLt⟩ := CodePoint.digit?_eq_some_iff.mp hn
    simp only [CodePoint.number]
    omega
  · revert p
    decide

/-- A text that spells an integer has nothing in it that comes after the surrogates or among
them. -/
theorem Numeral.Spells.number_lt {t digits : Text} {n : Int} (h : Spells t digits n) :
    ∀ p ∈ t, p.number < 0xD800 := by
  obtain ⟨hBefore, hWhole, hFraction, hAfter⟩ := h
  simp only [List.forall_mem_append]
  exact ⟨⟨fun p hp => Text.number_lt_of_isWhiteSpace (hBefore p hp),
      fun p hp => (hWhole.isMark p hp).number_lt, fun p hp => (hFraction.isMark p hp).number_lt⟩,
    fun p hp => Text.number_lt_of_isWhiteSpace (hAfter p hp)⟩

theorem Accept.isUnicode_of_number_lt {t : Text} (h : ∀ p ∈ t, p.number < 0xD800) :
    isUnicode t = true := by
  refine List.all_eq_true.mpr fun p hp => ?_
  match p with
  | .scalar _ => rfl
  | .surrogate offset => exact absurd (h _ hp) (Nat.not_lt.mpr (Nat.le_add_right _ _))

theorem Numeral.Spells.isUnicode {t digits : Text} {n : Int} (h : Spells t digits n) :
    Accept.isUnicode t = true :=
  Accept.isUnicode_of_number_lt h.number_lt

namespace Accept

theorem integerDouble_eq_ok_iff {x : Double} {n : Int} :
    integerDouble x = .ok n ↔ x.value? = some (n : ℚ) ∧ -wordBound < n ∧ n < wordBound := by
  -- what is not finite has no value; a finite double is whole or it is not, and then within a word
  cases x with
  | nan => simp [integerDouble, Double.value?]
  | infinite negative => simp [integerDouble, Double.value?]
  | finite negative m e h =>
    rw [← Double.toInt?_eq_some_iff]
    unfold integerDouble
    dsimp only
    cases (Double.finite negative m e h).toInt? with
    | none => simp
    | some k =>
      dsimp only
      split
      · next hWord =>
        rw [Except.ok.injEq, Option.some.injEq]
        constructor
        · rintro rfl
          exact ⟨rfl, hWord⟩
        · exact fun h => h.1
      · next hWord =>
        constructor
        · intro h
          cases h
        · rintro ⟨hk, hWord'⟩
          obtain rfl := Option.some.inj hk
          exact absurd hWord' hWord

theorem integerText_eq_ok_iff {t : Text} {n : Int} :
    integerText t = .ok n ↔
      ∃ digits, Numeral.Spells t digits n ∧ digits.length ≤ Numeral.digitLimit := by
  unfold integerText
  split
  · rw [← Numeral.integer_eq_ok_iff]
    rcases Numeral.integer t with (- | -) | k <;> simp
  · next hHalves =>
    -- a text with surrogates spells no integer
    constructor
    · intro h
      cases h
    · rintro ⟨digits, hSpells, -⟩
      exact absurd hSpells.isUnicode hHalves

/-- What is taken as an integer denotes it. -/
theorem denotes_of_integer {v : Value} {n : Int} (h : integer v = .ok n) :
    v.Denotes Numeral.Spells n := by
  match v with
  | .int m =>
    obtain rfl := Except.ok.inj h
    exact .int m
  | .float x => exact .float (integerDouble_eq_ok_iff.mp h).1
  | .text t =>
    obtain ⟨digits, hSpells, -⟩ := integerText_eq_ok_iff.mp h
    exact .text hSpells

theorem integer_of_writes {v : Value} {n : Int} (h : v.Writes n) : integer v = .ok n := by
  have hNumeral : ∀ {t digits : Text}, Numeral.Usual t digits n → digits.length ≤ 4300 →
      integerText t = .ok n := by
    intro t digits hUsual hLimit
    obtain ⟨digits', hSpells, hLength⟩ := hUsual.spells
    exact integerText_eq_ok_iff.mpr ⟨digits', hSpells, hLength.trans hLimit⟩
  -- digits are a usual numeral like others
  cases h with
  | int => rfl
  | float h hLeast hGreatest => exact integerDouble_eq_ok_iff.mpr ⟨h, hLeast, hGreatest⟩
  | digits hLength =>
    refine hNumeral (Numeral.usual_ofInt n) (Nat.le_trans ?_ hLength)
    match n with
    | .ofNat _ => exact Nat.le_refl _
    | .negSucc _ => exact Nat.le_succ _
  | numeral hUsual hLimit => exact hNumeral hUsual hLimit

theorem integer_ne_ok_of_isNoInteger {v : Value} (h : v.IsNoInteger) (n : Int) :
    integer v ≠ .ok n := by
  intro hInteger
  have hDenotes := denotes_of_integer hInteger
  cases h with
  | float hx =>
    obtain - | hn := hDenotes
    exact hx n hn
  | _ => cases hDenotes

end Accept

/-! ## Integer fields -/

/-- The integer of a value of a kind. -/
def Kind.toInt? : (k : Kind) → k.Carrier → Option Int
  | .integer, n => some n
  | .natural, n => some (Int.ofNat n)
  | _, _ => none

/-- The integer that a field of a report has. -/
def Report.integer? (r : Report) (f : Field) : Option Int := (r.value f).bind f.kind.toInt?

namespace Field

/-- Whether a field holds an integer. -/
def IsInteger (f : Field) : Prop := f.kind = .integer ∨ f.kind = .natural

/-- The integers that a field may hold: the controls of the oscillator are not negative. -/
def Admits (f : Field) (n : Int) : Prop := f = .fineCtrl ∨ f = .coarseCtrl → 0 ≤ n

theorem kind_eq_natural_iff {f : Field} : f.kind = .natural ↔ f = .fineCtrl ∨ f = .coarseCtrl := by
  cases f <;> decide

end Field

namespace Kind

variable {k : Kind} (hk : k = .integer ∨ k = .natural) {v : Value}
include hk

/-- A kind of integers takes what is taken as an integer, but a natural number is not negative. -/
theorem toInt?_accept_eq_some_iff {n : Int} :
    (k.accept v).toOption.bind k.toInt? = some n ↔
      Accept.integer v = .ok n ∧ (k = .natural → 0 ≤ n) := by
  rcases hk with rfl | rfl
  · change (Accept.integer v).toOption.bind some = some n ↔ _
    cases Accept.integer v <;> simp [Except.toOption]
  · -- a natural number is the integer itself, unless that is negative
    change (Accept.natural v).toOption.bind (fun n => some (Int.ofNat n)) = some n ↔ _
    unfold Accept.natural
    rcases Accept.integer v with reason | (m | m)
    · simp [Except.toOption]
    · have hNonneg : (m : Int) = n → 0 ≤ n := by omega
      simpa [Except.toOption] using hNonneg
    · have hNegative : Int.negSucc m = n → n < 0 := by omega
      simpa [Except.toOption] using hNegative

theorem toOption_accept_eq_none (h : ∀ n, Accept.integer v ≠ .ok n) :
    (k.accept v).toOption = none := by
  match hInteger : Accept.integer v with
  | .ok n => exact absurd hInteger (h n)
  | .error reason =>
    have hNatural : Accept.natural v = .error reason := by rw [Accept.natural, hInteger]
    rcases hk with rfl | rfl
    · exact congrArg Except.toOption hInteger
    · exact congrArg Except.toOption hNatural

end Kind

namespace Report

/-- **The integer fields of a report are exact.** When a field has an integer, it is the one that
the reply denotes there, and no control of the oscillator is negative. Every integer that the field
admits is taken as it is written: as an integer of any size, as a double within 64 bits, as its
digits or as any other usual numeral. A boolean, a double that is no integer, a list and an object
leave the field unknown. -/
theorem integers_exact {o : Object} {f : Field} (hInteger : f.IsInteger) {v : Value}
    (hWire : f.wire o = some v) :
    (∀ n, (ofDocument o).integer? f = some n →
      (∀ m, v.Denotes Numeral.Spells m ↔ m = n) ∧ f.Admits n) ∧
    (∀ n, f.Admits n → v.Writes n → (ofDocument o).integer? f = some n) ∧
    (v.IsNoInteger → (ofDocument o).value f = none) := by
  have hValue : (ofDocument o).value f = (f.kind.accept v).toOption := by
    change f.decode (f.wire o) = _
    rw [hWire]
    rfl
  -- the field has what is taken as an integer, if it admits it
  have hTaken : ∀ n, (ofDocument o).integer? f = some n ↔
      Accept.integer v = .ok n ∧ f.Admits n := by
    intro n
    rw [integer?, hValue, Kind.toInt?_accept_eq_some_iff hInteger, Field.kind_eq_natural_iff]
    rfl
  refine ⟨fun n hn => ?_, fun n hAdmits hWrites => ?_, fun hNone => ?_⟩
  · obtain ⟨hAccept, hAdmits⟩ := (hTaken n).mp hn
    have hDenotes := Accept.denotes_of_integer hAccept
    refine ⟨fun m => ⟨fun hm => hm.unique hDenotes, ?_⟩, hAdmits⟩
    rintro rfl
    exact hDenotes
  · exact (hTaken n).mpr ⟨Accept.integer_of_writes hWrites, hAdmits⟩
  · rw [hValue]
    exact Kind.toOption_accept_eq_none hInteger (Accept.integer_ne_ok_of_isNoInteger hNone)

/-- An integer beyond 64 bits that is written as its digits. -/
theorem integers_exact_of_digits :
    let v := Value.text (Text.ofInt (-(10 ^ 20)))
    let o : Object := [("clock", .object [("offset", v)])]
    Field.offset.IsInteger ∧ Field.offset.wire o = some v ∧
      (ofDocument o).integer? .offset = some (-(10 ^ 20)) ∧
      ∀ m, v.Denotes Numeral.Spells m ↔ m = -(10 ^ 20) := by
  intro v o
  have hInteger : Field.offset.IsInteger := .inl rfl
  have hWire : Field.offset.wire o = some v := rfl
  obtain ⟨hExact, hTaken, -⟩ := integers_exact hInteger hWire
  have hLength : (Text.ofInt (-(10 ^ 20))).length ≤ 4300 := by decide
  have hOffset := hTaken (-(10 ^ 20)) (fun h => h.elim nofun nofun) (.digits hLength)
  exact ⟨hInteger, hWire, hOffset, (hExact _ hOffset).1⟩

/-- A minus sign between digits is not usual, but it is read. -/
theorem offset_of_minus_behind :
    let o : Object := [("clock", .object [("offset", .text "0-1")])]
    Field.offset.wire o = some (.text "0-1") ∧ (ofDocument o).integer? .offset = some (-1) ∧
      ∀ n, ¬ (Value.text "0-1").Denotes Numeral.Usual n := by
  intro o
  refine ⟨rfl, by decide, fun n hDenotes => ?_⟩
  obtain - | - | hUsual := hDenotes
  generalize hText : Text.ofString "0-1" = t at hUsual
  obtain @⟨before, whole, fraction, after, digits, negative, hBefore, hWhole, hFraction, hAfter⟩ :=
    hUsual
  obtain ⟨hSign, hGrouped⟩ := hWhole
  change [CodePoint.scalar '0', .scalar '-', .scalar '1'] = _ at hText
  match before, hBefore with
  | p :: _, hBefore =>
    obtain rfl := (List.cons.inj hText).1
    cases hBefore _ List.mem_cons_self
  | [], _ =>
    cases hSign with
    | plus | minus => cases hText
    | none =>
      cases hGrouped with
      | last =>
        -- neither a fraction nor white space begins with the minus sign
        have hRest := (List.cons.inj hText).2
        cases hFraction with
        | none =>
          obtain rfl : after = _ := hRest.symm
          cases hAfter _ List.mem_cons_self
        | zeros => cases hRest
      | digit _ hRest =>
        obtain ⟨q, rest, rfl, hDigit⟩ := hRest.head_isDigit
        obtain rfl := (List.cons.inj (List.cons.inj hText).2).1
        cases hDigit
      | underscore => cases hText

end Report

end OscMonitor
