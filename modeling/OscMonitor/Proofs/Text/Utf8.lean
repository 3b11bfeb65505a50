import OscMonitor.Text.Utf8

/-!
# UTF-8 is one to one

Decoding accepts exactly the bytes that encoding writes, so a byte sequence has at most one text
and a text at most one byte sequence. Since decoding takes one character after the other, it also
commutes with putting byte sequences together.

* `decodeAt_encode_append` — the bytes of characters decode to them, whatever follows.
* `decode_eq_ok_iff` — bytes decode to a text exactly when they are the bytes of its characters.
* `decode_append_eq_ok` — of two byte sequences that decode, the one that begins the other decodes
  to the beginning of its text.
-/

namespace OscMonitor.Utf8

theorem toNat_ofNat {n : Nat} (h : n.isValidChar) : (Char.ofNat n).toNat = n := by
  rw [Char.ofNat, dif_pos h]
  rfl

/-! ## Continuation bytes -/

theorem continuation?_eq_some_iff {b : UInt8} {x : Nat} :
    continuation? b = some x ↔ b.toNat = 0x80 + x ∧ x < 0x40 := by
  unfold continuation?
  split <;> simp only [Option.some.injEq, reduceCtorEq, false_iff] <;> omega

theorem secondOfThree?_eq_some_iff {lead b : UInt8} {x : Nat} :
    secondOfThree? lead b = some x ↔
      (b.toNat = 0x80 + x ∧ x < 0x40) ∧ (lead.toNat = 0xE0 → 0x20 ≤ x) ∧
        (lead.toNat = 0xED → x < 0x20) := by
  unfold secondOfThree?
  simp only [← UInt8.toNat_inj, UInt8.lt_iff_toNat_lt, UInt8.le_iff_toNat_le, UInt8.toNat_ofNat]
  split
  · simp only [reduceCtorEq, false_iff]
    omega
  · rw [continuation?_eq_some_iff]
    omega

theorem secondOfFour?_eq_some_iff {lead b : UInt8} {x : Nat} :
    secondOfFour? lead b = some x ↔
      (b.toNat = 0x80 + x ∧ x < 0x40) ∧ (lead.toNat = 0xF0 → 0x10 ≤ x) ∧
        (lead.toNat = 0xF4 → x < 0x10) := by
  unfold secondOfFour?
  simp only [← UInt8.toNat_inj, UInt8.lt_iff_toNat_lt, UInt8.le_iff_toNat_le, UInt8.toNat_ofNat]
  split
  · simp only [reduceCtorEq, false_iff]
    omega
  · rw [continuation?_eq_some_iff]
    omega

/-! ## From characters to bytes and back -/

private theorem toNat_byte {n : Nat} (h : n < 0x100) : (UInt8.ofNat n).toNat = n :=
  UInt8.toNat_ofNat_of_lt' h

private theorem continuation?_byte {x : Nat} (h : x < 0x40) :
    continuation? (.ofNat (0x80 + x)) = some x :=
  continuation?_eq_some_iff.mpr ⟨toNat_byte (by omega), h⟩

theorem decodeAt_encodeChar_append (position : Nat) (c : Char) (rest : Bytes) :
    decodeAt position (encodeChar c ++ rest) =
      (.scalar c :: ·) <$> decodeAt (position + (encodeChar c).length) rest := by
  -- the arithmetic below is about the number of the character alone
  obtain ⟨n, hn, hValid⟩ : ∃ n, c.toNat = n ∧ n.isValidChar := ⟨_, rfl, c.valid⟩
  have hc : c = Char.ofNat n := by rw [← hn, Char.ofNat_toNat]
  unfold Nat.isValidChar at hValid
  unfold encodeChar
  simp only [hn]
  split
  · -- one byte
    have hb := toNat_byte (n := n) (by omega)
    rw [List.cons_append, decodeAt.eq_def]
    simp only [List.nil_append, UInt8.lt_iff_toNat_lt, hb, UInt8.toNat_ofNat]
    rw [if_pos (by omega), hc]
    rfl
  split
  · -- two bytes
    have hb := toNat_byte (n := 0xC0 + n / 0x40) (by omega)
    have hx₁ := continuation?_byte (x := n % 0x40) (by omega)
    rw [List.cons_append, decodeAt.eq_def]
    simp only [List.cons_append, List.nil_append, UInt8.lt_iff_toNat_lt, hb,
      UInt8.toNat_ofNat, hx₁]
    rw [if_neg (by omega), if_neg (by omega), if_pos (by omega),
      show (0xC0 + n / 0x40 - 0xC0) * 0x40 + n % 0x40 = n by omega, hc]
    rfl
  split
  · -- three bytes
    have hb := toNat_byte (n := 0xE0 + n / 0x1000) (by omega)
    have hx₁ : secondOfThree? (.ofNat (0xE0 + n / 0x1000)) (.ofNat (0x80 + n / 0x40 % 0x40)) =
        some (n / 0x40 % 0x40) :=
      secondOfThree?_eq_some_iff.mpr
        ⟨⟨toNat_byte (by omega), by omega⟩, fun h => by omega, fun h => by omega⟩
    have hx₂ := continuation?_byte (x := n % 0x40) (by omega)
    rw [List.cons_append, decodeAt.eq_def]
    simp only [List.cons_append, List.nil_append, UInt8.lt_iff_toNat_lt, hb,
      UInt8.toNat_ofNat, hx₁, hx₂]
    rw [if_neg (by omega), if_neg (by omega), if_neg (by omega), if_pos (by omega),
      show (0xE0 + n / 0x1000 - 0xE0) * 0x1000 + n / 0x40 % 0x40 * 0x40 + n % 0x40 = n by omega,
      hc]
    rfl
  · -- four bytes
    have hb := toNat_byte (n := 0xF0 + n / 0x40000) (by omega)
    have hx₁ : secondOfFour? (.ofNat (0xF0 + n / 0x40000)) (.ofNat (0x80 + n / 0x1000 % 0x40)) =
        some (n / 0x1000 % 0x40) :=
      secondOfFour?_eq_some_iff.mpr
        ⟨⟨toNat_byte (by omega), by omega⟩, fun h => by omega, fun h => by omega⟩
    have hx₂ := continuation?_byte (x := n / 0x40 % 0x40) (by omega)
    have hx₃ := continuation?_byte (x := n % 0x40) (by omega)
    rw [List.cons_append, decodeAt.eq_def]
    simp only [List.cons_append, List.nil_append, UInt8.lt_iff_toNat_lt, hb,
      UInt8.toNat_ofNat, hx₁, hx₂, hx₃]
    rw [if_neg (by omega), if_neg (by omega), if_neg (by omega), if_neg (by omega),
      if_pos (by omega),
      show (0xF0 + n / 0x40000 - 0xF0) * 0x40000 + n / 0x1000 % 0x40 * 0x1000 +
        n / 0x40 % 0x40 * 0x40 + n % 0x40 = n by omega, hc]
    rfl

theorem encodeChar_one {b : UInt8} (h : b.toNat < 0x80) :
    encodeChar (Char.ofNat b.toNat) = [b] := by
  unfold encodeChar
  rw [toNat_ofNat (.inl (by omega))]
  simp only [if_pos h, UInt8.ofNat_toNat]

theorem encodeChar_two {b b₁ : UInt8} {x₁ : Nat} (h : 0xC2 ≤ b.toNat) (h' : b.toNat < 0xE0)
    (hx₁ : continuation? b₁ = some x₁) :
    encodeChar (Char.ofNat ((b.toNat - 0xC0) * 0x40 + x₁)) = [b, b₁] := by
  obtain ⟨hb₁, hlt₁⟩ := continuation?_eq_some_iff.mp hx₁
  unfold encodeChar
  rw [toNat_ofNat (.inl (by omega))]
  simp only
  rw [if_neg (by omega), if_pos (by omega),
    show 0xC0 + ((b.toNat - 0xC0) * 0x40 + x₁) / 0x40 = b.toNat by omega,
    show 0x80 + ((b.toNat - 0xC0) * 0x40 + x₁) % 0x40 = b₁.toNat by omega]
  simp only [UInt8.ofNat_toNat]

theorem encodeChar_three {b b₁ b₂ : UInt8} {x₁ x₂ : Nat} (h : 0xE0 ≤ b.toNat)
    (h' : b.toNat < 0xF0) (hx₁ : secondOfThree? b b₁ = some x₁)
    (hx₂ : continuation? b₂ = some x₂) :
    encodeChar (Char.ofNat ((b.toNat - 0xE0) * 0x1000 + x₁ * 0x40 + x₂)) = [b, b₁, b₂] := by
  obtain ⟨⟨hb₁, hlt₁⟩, hOverlong, hSurrogate⟩ := secondOfThree?_eq_some_iff.mp hx₁
  obtain ⟨hb₂, hlt₂⟩ := continuation?_eq_some_iff.mp hx₂
  generalize hn : (b.toNat - 0xE0) * 0x1000 + x₁ * 0x40 + x₂ = n
  -- the second byte keeps the number out of the surrogates
  have hValid : n.isValidChar := by
    unfold Nat.isValidChar
    omega
  unfold encodeChar
  rw [toNat_ofNat hValid]
  simp only
  rw [if_neg (by omega), if_neg (by omega), if_pos (by omega),
    show 0xE0 + n / 0x1000 = b.toNat by omega,
    show 0x80 + n / 0x40 % 0x40 = b₁.toNat by omega,
    show 0x80 + n % 0x40 = b₂.toNat by omega]
  simp only [UInt8.ofNat_toNat]

theorem encodeChar_four {b b₁ b₂ b₃ : UInt8} {x₁ x₂ x₃ : Nat} (h : 0xF0 ≤ b.toNat)
    (h' : b.toNat < 0xF5) (hx₁ : secondOfFour? b b₁ = some x₁)
    (hx₂ : continuation? b₂ = some x₂) (hx₃ : continuation? b₃ = some x₃) :
    encodeChar (Char.ofNat ((b.toNat - 0xF0) * 0x40000 + x₁ * 0x1000 + x₂ * 0x40 + x₃)) =
      [b, b₁, b₂, b₃] := by
  obtain ⟨⟨hb₁, hlt₁⟩, hOverlong, hTooLarge⟩ := secondOfFour?_eq_some_iff.mp hx₁
  obtain ⟨hb₂, hlt₂⟩ := continuation?_eq_some_iff.mp hx₂
  obtain ⟨hb₃, hlt₃⟩ := continuation?_eq_some_iff.mp hx₃
  generalize hn : (b.toNat - 0xF0) * 0x40000 + x₁ * 0x1000 + x₂ * 0x40 + x₃ = n
  -- the second byte keeps the number within Unicode
  have hValid : n.isValidChar := by
    unfold Nat.isValidChar
    omega
  unfold encodeChar
  rw [toNat_ofNat hValid]
  simp only
  rw [if_neg (by omega), if_neg (by omega), if_neg (by omega),
    show 0xF0 + n / 0x40000 = b.toNat by omega,
    show 0x80 + n / 0x1000 % 0x40 = b₁.toNat by omega,
    show 0x80 + n / 0x40 % 0x40 = b₂.toNat by omega,
    show 0x80 + n % 0x40 = b₃.toNat by omega]
  simp only [UInt8.ofNat_toNat]

/-! ## Whole byte sequences -/

/-- The bytes of characters decode to them, and decoding goes on with what follows. -/
theorem decodeAt_encode_append (position : Nat) (cs : List Char) (rest : Bytes) :
    decodeAt position (encode cs ++ rest) =
      (cs.map .scalar ++ ·) <$> decodeAt (position + (encode cs).length) rest := by
  induction cs generalizing position with
  | nil => simp [encode]
  | cons c cs ih =>
    have hCons : encode (c :: cs) = encodeChar c ++ encode cs := rfl
    rw [hCons, List.append_assoc, decodeAt_encodeChar_append, ih, List.length_append,
      Nat.add_assoc, Functor.map_map]
    rfl

private theorem eq_ok_of_bind_cons {p : CodePoint} {e : Except Fault Text} {t : Text}
    (h : (do return p :: (← e)) = Except.ok t) : ∃ rest, e = .ok rest ∧ t = p :: rest := by
  cases e with
  | error fault => cases h
  | ok rest => exact ⟨rest, rfl, (Except.ok.inj h).symm⟩

/-- When the bytes of a character are followed by what decodes to the bytes of characters, all of
them are the bytes of characters. -/
private theorem eq_encode_cons {c : Char} {w rest : Bytes} {e : Except Fault Text} {t : Text}
    (hChar : encodeChar c = w) (h : (do return .scalar c :: (← e)) = Except.ok t)
    (hRest : ∀ {tail}, e = .ok tail → ∃ cs : List Char, tail = cs.map .scalar ∧ rest = encode cs) :
    ∃ cs : List Char, t = cs.map .scalar ∧ w ++ rest = encode cs := by
  obtain ⟨tail, hTail, rfl⟩ := eq_ok_of_bind_cons h
  obtain ⟨cs, rfl, rfl⟩ := hRest hTail
  refine ⟨c :: cs, rfl, ?_⟩
  show _ = encodeChar c ++ encode cs
  rw [hChar]

theorem eq_encode_of_decodeAt {position : Nat} {b : Bytes} {t : Text}
    (h : decodeAt position b = .ok t) : ∃ cs : List Char, t = cs.map .scalar ∧ b = encode cs := by
  -- of the cases of the decoder, five end in a text: no bytes, and one for each length
  fun_induction decodeAt position b generalizing t with
  | case1 => exact ⟨[], (Except.ok.inj h).symm, rfl⟩
  | case2 position b rest hb ih => exact eq_encode_cons (encodeChar_one hb) h ih
  | case6 position b hb hb' hb'' b₁ rest x₁ hx₁ ih =>
    exact eq_encode_cons (encodeChar_two (UInt8.not_lt.mp hb') hb'' hx₁) h ih
  | case11 position b hb hb' hb'' hb₃ b₁ x₁ b₂ rest hx₁ x₂ hx₂ ih =>
    exact eq_encode_cons (encodeChar_three (UInt8.not_lt.mp hb'') hb₃ hx₁ hx₂) h ih
  | case18 position b hb hb' hb'' hb₃ hb₄ b₁ x₁ b₂ hx₁ x₂ b₃ rest hx₂ x₃ hx₃ ih =>
    exact eq_encode_cons (encodeChar_four (UInt8.not_lt.mp hb₃) hb₄ hx₁ hx₂ hx₃) h ih
  | _ => cases h

theorem decode_encode (cs : List Char) : decode (encode cs) = .ok (cs.map .scalar) := by
  have h := decodeAt_encode_append 0 cs []
  rw [List.append_nil] at h
  rw [decode, h]
  show Except.ok (cs.map CodePoint.scalar ++ []) = _
  rw [List.append_nil]

/-- Bytes decode to a text exactly when they are the bytes of its characters. -/
theorem decode_eq_ok_iff {b : Bytes} {t : Text} :
    decode b = .ok t ↔ ∃ cs : List Char, t = cs.map .scalar ∧ b = encode cs := by
  constructor
  · exact eq_encode_of_decodeAt
  · rintro ⟨cs, rfl, rfl⟩
    exact decode_encode cs

/-- When bytes decode and so does their beginning, what follows it is the bytes of characters, and
their texts stand one after the other. -/
theorem decode_append_eq_ok {b rest : Bytes} {t t' : Text} (hAll : decode (b ++ rest) = .ok t)
    (hBegin : decode b = .ok t') :
    ∃ cs : List Char, t = t' ++ cs.map .scalar ∧ rest = encode cs := by
  obtain ⟨begun, rfl, rfl⟩ := decode_eq_ok_iff.mp hBegin
  rw [decode, decodeAt_encode_append] at hAll
  cases hRest : decodeAt (0 + (encode begun).length) rest with
  | error fault =>
    rw [hRest] at hAll
    cases hAll
  | ok tail =>
    rw [hRest] at hAll
    obtain ⟨cs, rfl, rfl⟩ := eq_encode_of_decodeAt hRest
    exact ⟨cs, (Except.ok.inj hAll).symm, rfl⟩

theorem encode_of_ascii {cs : List Char} (h : ∀ c ∈ cs, c.toNat < 0x80) :
    encode cs = cs.map fun c => .ofNat c.toNat := by
  induction cs with
  | nil => rfl
  | cons c cs ih =>
    have hHead : encodeChar c = [.ofNat c.toNat] := by
      unfold encodeChar
      exact if_pos (h c (List.mem_cons_self ..))
    show encodeChar c ++ encode cs = _
    rw [hHead, ih fun c' hc' => h c' (List.mem_cons_of_mem _ hc')]
    rfl

end OscMonitor.Utf8
