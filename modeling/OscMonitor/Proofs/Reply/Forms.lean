import Mathlib
import OscMonitor.Exchange.Stages
import OscMonitor.Proofs.Reply.Document
import OscMonitor.Proofs.Report.Reading
import OscMonitor.Proofs.Text.Utf8

/-!
# The forms of a reply

The same reply may come as text or as the bytes of the text, and either may be followed by
terminators. The terminators are cut off before the bytes are decoded in one form, and from the text
as it is in the other. Both come to the same: a terminator is one byte, and every other character
ends in a byte that is no terminator, so what is cut off the bytes is what is cut off the text.

* `trimBytes_append`, `trimBytes_concat` — what trimming takes from bytes, and where it stops.
* `encodeChar_eq_concat` — the last byte of a character is a terminator only if the character is.
* `content_bytes_encode` — the bytes of a text have the content of the text.
* `readReport_forms` — all forms of a reply are read alike, or refused alike.
-/

namespace OscMonitor

namespace Reply

/-! ## What is trimmed -/

theorem trimBytes_isPrefix (b : Bytes) : trimBytes b <+: b :=
  List.rdropWhile_prefix _ _

theorem trimBytes_trimBytes (b : Bytes) : trimBytes (trimBytes b) = trimBytes b :=
  List.rdropWhile_idempotent _ _

theorem trimBytes_append {b z : Bytes} (hz : ∀ x ∈ z, isTerminator x.toNat = true) :
    trimBytes (b ++ z) = trimBytes b := by
  unfold trimBytes
  rw [List.reverse_append, List.dropWhile_append_of_pos fun x hx => hz x (List.mem_reverse.mp hx)]

theorem trimText_append {t z : Text} (hz : ∀ p ∈ z, isTerminator p.number = true) :
    trimText (t ++ z) = trimText t := by
  unfold trimText Text.trimEnd
  rw [List.reverse_append, List.dropWhile_append_of_pos fun p hp => hz p (List.mem_reverse.mp hp)]

theorem trimBytes_concat {x : UInt8} (hx : isTerminator x.toNat = false) (b : Bytes) :
    trimBytes (b ++ [x]) = b ++ [x] :=
  List.rdropWhile_concat_neg _ _ _ (Bool.eq_false_iff.mp hx)

theorem trimText_concat {p : CodePoint} (hp : isTerminator p.number = false) (t : Text) :
    trimText (t ++ [p]) = t ++ [p] :=
  List.rdropWhile_concat_neg _ _ _ (Bool.eq_false_iff.mp hp)

/-- Bytes are their trimmed bytes and terminators. -/
theorem exists_terminators (b : Bytes) :
    ∃ z, b = trimBytes b ++ z ∧ ∀ x ∈ z, isTerminator x.toNat = true :=
  ⟨_, List.rdropWhile_append_rtakeWhile.symm, fun _ => List.mem_rtakeWhile_imp⟩

/-- Trimmed bytes do not end in terminators. -/
theorem eq_nil_of_trimBytes_eq_append {b s z : Bytes} (hs : trimBytes b = s ++ z)
    (hz : ∀ x ∈ z, isTerminator x.toNat = true) : z = [] := by
  have hLength : (trimBytes s).length = s.length + z.length := by
    rw [← trimBytes_append hz, ← hs, trimBytes_trimBytes, hs, List.length_append]
  have hLe := (trimBytes_isPrefix s).length_le
  exact List.length_eq_zero_iff.mp (by omega)

/-! ## Terminators in bytes -/

/-- The characters that may follow a reply: NUL and four blanks. -/
def terminators : List Char := ['\x00', ' ', '\t', '\r', '\n']

theorem isTerminator_of_mem {c : Char} (h : c ∈ terminators) : isTerminator c.toNat = true := by
  have hAll : terminators.all (fun c => isTerminator c.toNat) = true := by decide
  exact List.all_eq_true.mp hAll c h

theorem isTerminator_lt {n : Nat} (h : isTerminator n = true) : n < 0x80 := by
  simp only [isTerminator, Bool.or_eq_true, beq_iff_eq] at h
  omega

/-- A terminator is one byte. -/
theorem encode_of_isTerminator {z : List Char} (hz : ∀ c ∈ z, isTerminator c.toNat = true) :
    ∀ x ∈ Utf8.encode z, isTerminator x.toNat = true := by
  intro x hx
  rw [Utf8.encode_of_ascii fun c hc => isTerminator_lt (hz c hc)] at hx
  obtain ⟨c, hc, rfl⟩ := List.mem_map.mp hx
  have hAscii : c.toNat < 0x80 := isTerminator_lt (hz c hc)
  rw [UInt8.toNat_ofNat_of_lt' (show c.toNat < 2 ^ 8 by omega)]
  exact hz c hc

/-- The last byte of a character is no terminator unless the character is one. -/
theorem encodeChar_eq_concat {c : Char} (hc : isTerminator c.toNat = false) :
    ∃ before x, Utf8.encodeChar c = before ++ [x] ∧ isTerminator x.toNat = false := by
  -- beyond ASCII the last byte goes on a character, and so is too large for a terminator
  have hContinues : ∀ n, isTerminator (UInt8.ofNat (0x80 + n % 0x40)).toNat = false := by
    intro n
    rw [UInt8.toNat_ofNat_of_lt' (show 0x80 + n % 0x40 < 2 ^ 8 by omega), Bool.eq_false_iff]
    intro hTerminator
    have hLt := isTerminator_lt hTerminator
    omega
  unfold Utf8.encodeChar
  dsimp only
  split
  · next hAscii =>
    refine ⟨[], _, rfl, ?_⟩
    rwa [UInt8.toNat_ofNat_of_lt' (show c.toNat < 2 ^ 8 by omega)]
  split
  · exact ⟨[_], _, rfl, hContinues _⟩
  split
  · exact ⟨[_, _], _, rfl, hContinues _⟩
  · exact ⟨[_, _, _], _, rfl, hContinues _⟩

theorem encode_concat (cs : List Char) (c : Char) :
    Utf8.encode (cs ++ [c]) = Utf8.encode cs ++ Utf8.encodeChar c := by
  rw [Utf8.encode, List.flatMap_append, List.flatMap_singleton]
  rfl

/-! ## Contents -/

theorem content_bytes_append {b z : Bytes} (hz : ∀ x ∈ z, isTerminator x.toNat = true) :
    content (.bytes (b ++ z)) = content (.bytes b) := by
  simp only [content]
  rw [trimBytes_append hz]

theorem content_text_append {t z : Text} (hz : ∀ p ∈ z, isTerminator p.number = true) :
    content (.text (t ++ z)) = content (.text t) := by
  simp only [content]
  rw [trimText_append hz]

/-- The bytes of a text have the content of the text. -/
theorem content_bytes_encode (cs : List Char) :
    content (.bytes (Utf8.encode cs)) = content (.text (cs.map .scalar)) := by
  -- from the end: terminators are cut off in both forms, until there is a character that is none
  induction cs using List.reverseRecOn with
  | nil => rfl
  | append_singleton cs c ih =>
    rw [encode_concat, List.map_append, List.map_singleton]
    have hPoint : isTerminator (CodePoint.scalar c).number = isTerminator c.toNat := rfl
    cases hc : isTerminator c.toNat with
    | true =>
      have hBytes : ∀ x ∈ Utf8.encodeChar c, isTerminator x.toNat = true := by
        have hAll := encode_of_isTerminator (z := [c]) (List.forall_mem_singleton.mpr hc)
        rwa [Utf8.encode, List.flatMap_singleton] at hAll
      rw [content_bytes_append hBytes, ih]
      exact (content_text_append (List.forall_mem_singleton.mpr (hPoint.trans hc))).symm
    | false =>
      obtain ⟨before, x, hChar, hx⟩ := encodeChar_eq_concat hc
      have hTrim : trimBytes (Utf8.encode (cs ++ [c])) = Utf8.encode (cs ++ [c]) := by
        rw [encode_concat, hChar, ← List.append_assoc]
        exact trimBytes_concat hx _
      have hDecode := Utf8.decode_encode (cs ++ [c])
      rw [← encode_concat]
      simp only [content, hTrim, hDecode, List.map_append, List.map_singleton]
      rw [trimText_concat (hPoint.trans hc)]

/-! ## Documents -/

theorem document_congr {r r' : Reply} (h : r.content = r'.content) : r.document = r'.document := by
  rw [document, h]
  rfl

/-- Terminators at the end of a reply do not matter. -/
theorem document_append_terminators {b z : Bytes} (hz : ∀ x ∈ z, isTerminator x.toNat = true) :
    document (.bytes (b ++ z)) = document (.bytes b) :=
  document_congr (content_bytes_append hz)

/-- The forms in which a text may come: as it is or in bytes, alone or with a tail. -/
def forms (cs tail : List Char) : List Reply :=
  [.text (cs.map .scalar), .text (cs.map .scalar ++ tail.map .scalar),
    .bytes (Utf8.encode cs), .bytes (Utf8.encode cs ++ Utf8.encode tail)]

/-- All forms of a text have the document of the text. -/
theorem document_of_mem_forms {cs tail : List Char} (hTail : ∀ c ∈ tail, c ∈ terminators)
    {reply : Reply} (h : reply ∈ forms cs tail) :
    reply.document = document (.text (cs.map .scalar)) := by
  have hTerminators : ∀ c ∈ tail, isTerminator c.toNat = true :=
    fun c hc => isTerminator_of_mem (hTail c hc)
  have hText : ∀ p ∈ tail.map CodePoint.scalar, isTerminator p.number = true := by
    intro p hp
    obtain ⟨c, hc, rfl⟩ := List.mem_map.mp hp
    exact hTerminators c hc
  have hBytes := encode_of_isTerminator hTerminators
  apply document_congr
  simp only [forms, List.mem_cons, List.not_mem_nil, or_false] at h
  obtain rfl | rfl | rfl | rfl := h
  · rfl
  · exact content_text_append hText
  · exact content_bytes_encode cs
  · rw [content_bytes_append hBytes]
    exact content_bytes_encode cs

end Reply

namespace Report

/-- **All forms of a reply are read alike.** A text and its bytes in UTF-8, each alone or with
terminators after it, are the same to the reader: what it makes of them and what it logs is the
same. They have one report, with its document, or they are refused with one failure, the same in
its message, its code and its details. -/
theorem readReport_forms (cs tail : List Char) (hTail : ∀ c ∈ tail, c ∈ Reply.terminators) :
    (∀ reply ∈ Reply.forms cs tail, ∀ reply' ∈ Reply.forms cs tail,
        Exchange.readReport reply = Exchange.readReport reply') ∧
      ((∃ r, ∀ reply ∈ Reply.forms cs tail, ofReply reply = .ok r) ∨
        ∃ message details, ∀ reply ∈ Reply.forms cs tail, ∃ fault,
          ofReply reply = .error fault ∧ fault.failure = .ofStage .decoding message details) := by
  have hDocument : ∀ reply ∈ Reply.forms cs tail,
      reply.document = Reply.document (.text (cs.map .scalar)) :=
    fun _ => Reply.document_of_mem_forms hTail
  constructor
  · intro reply hReply reply' hReply'
    rw [Exchange.readReport, Exchange.readReport, hDocument reply hReply, hDocument reply' hReply']
  · have hReport : ∀ reply ∈ Reply.forms cs tail,
        ofReply reply = ofReply (.text (cs.map .scalar)) := by
      intro reply hReply
      rw [ofReply, ofReply, hDocument reply hReply]
    cases hText : ofReply (.text (cs.map .scalar)) with
    | ok r => exact .inl ⟨r, fun reply hReply => (hReport reply hReply).trans hText⟩
    | error fault =>
      obtain ⟨message, details, hFailure⟩ := fault.exists_failure_eq
      exact .inr ⟨message, details, fun reply hReply =>
        ⟨fault, (hReport reply hReply).trans hText, hFailure⟩⟩

/-- A letter of two bytes in the text, and after it a line end and the terminator of a string. -/
theorem readReport_forms_of_letter :
    let text := "\x7b\"clock\": \x7b\"class\": \"é\"\x7d\x7d".toList
    let tail := ['\r', '\n', '\x00']
    let o : Object := [("clock", .object [("class", .text "é")])]
    (∀ c ∈ tail, c ∈ Reply.terminators) ∧
      ofReply (.text (text.map .scalar)) = .ok (ofDocument o) ∧
      ofReply (.bytes (Utf8.encode text ++ [0x0D, 0x0A, 0x00])) = .ok (ofDocument o) := by
  intro text tail o
  have hTail : ∀ c ∈ tail, c ∈ Reply.terminators := by
    intro c hc
    have hAll : tail.all (· ∈ Reply.terminators) = true := by decide
    exact of_decide_eq_true (List.all_eq_true.mp hAll c hc)
  have hText : ofReply (.text (text.map .scalar)) = .ok (ofDocument o) := by
    have hDocument : Reply.document (.text (text.map .scalar)) = .ok o := by
      subst text o
      cbv
    exact ofReply_eq_ok_iff.mpr ⟨o, hDocument, rfl⟩
  refine ⟨hTail, hText, ?_⟩
  have hForms : .text (text.map .scalar) ∈ Reply.forms text tail ∧
      .bytes (Utf8.encode text ++ [0x0D, 0x0A, 0x00]) ∈ Reply.forms text tail := by
    simp [Reply.forms, tail, Utf8.encode, Utf8.encodeChar]
  rcases (readReport_forms text tail hTail).2 with ⟨r, hRead⟩ | ⟨message, details, hRefused⟩
  · rw [hRead _ hForms.2, ← hRead _ hForms.1, hText]
  · obtain ⟨fault, hFault, -⟩ := hRefused _ hForms.1
    rw [hText] at hFault
    cases hFault

end Report

end OscMonitor
