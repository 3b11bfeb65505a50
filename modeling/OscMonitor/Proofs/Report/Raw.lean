import Mathlib
import OscMonitor.Proofs.Document.Printed
import OscMonitor.Proofs.Reply.Forms
import OscMonitor.Proofs.Report.Limits

/-!
# The raw document is a faithful reply

What is printed of a report's object is a reply again, as text and as bytes, and it says exactly
what the first one said. For a reply in bytes this holds without exception: its text is made of
characters, so the texts within it are joined, and so everything in it reads back.

* `Reply.readable_joined_of_document` — what a reply in bytes can say.
* `Reply.document_print` — a printed object is a reply, as text and as bytes.
* `Report.ofReply_print_raw` — the report of a printed report is the report.
-/

namespace OscMonitor

namespace Reply

/-! ## Replies in bytes -/

/-- The texts within the object of a reply in bytes are joined. -/
theorem readable_joined_of_document {b : Bytes} {o : Object} (h : document (.bytes b) = .ok o) :
    (Value.object o).Readable Text.Joined Reader.depthLimit := by
  obtain ⟨t, hDecode, hRead⟩ := document_bytes_eq_ok_iff.mp h
  obtain ⟨cs, rfl, -⟩ := Utf8.decode_eq_ok_iff.mp hDecode
  have hScalar : ∀ p ∈ cs.map CodePoint.scalar, p.isScalar = true := by
    intro p hp
    obtain ⟨c, -, rfl⟩ := List.mem_map.mp hp
    rfl
  refine Value.readable_of_read (fun start t r rest ht hScan => ?_) hScalar
    (Text.nesting_le_of_read hRead) hRead
  -- nothing stands before the text yet
  have hBegin : Text.Joined ([] : Text).reverse := .nil
  have hLast : ∀ p, ([] : Text).head? = some p → p.isHighHalf = true →
      Lexeme.lowHalf? t = none := nofun
  exact Lexeme.joined_of_scanText ht hBegin hLast hScan

/-! ## Printed objects -/

/-- A printed object is characters up to its closing bracket. -/
theorem exists_chars_print {s : Separators} (hPlain : s.IsPlain) (o : Object) :
    ∃ cs : List Char, (Value.object o).print s = cs.map .scalar ++ [.scalar '}'] := by
  have hPrint := Value.print_object_append s o []
  rw [List.append_nil, ← List.cons_append] at hPrint
  have hAscii := Value.isAscii_print hPlain (.object o)
  rw [hPrint] at hAscii ⊢
  obtain ⟨cs, hChars⟩ := Text.IsAscii.exists_chars (List.forall_mem_append.mp hAscii).1
  exact ⟨cs, by rw [hChars]⟩

/-- A printed object is a reply, as text and as the bytes of its characters. -/
theorem document_print {s : Separators} (hPlain : s.IsPlain) {o : Object}
    (h : (Value.object o).Readable Text.Joined Reader.depthLimit) :
    ∃ cs : List Char, (Value.object o).print s = cs.map .scalar ∧
      document (.text (cs.map .scalar)) = .ok o ∧ document (.bytes (Utf8.encode cs)) = .ok o := by
  obtain ⟨cs, hPrint⟩ := exists_chars_print hPlain o
  have hChars : (Value.object o).print s = (cs ++ ['}']).map .scalar := by
    rw [hPrint, List.map_append]
    rfl
  have hRead := Value.read_print hPlain h
  rw [hChars] at hRead
  refine ⟨cs ++ ['}'], hChars, ?_, ?_⟩
  · -- the closing bracket keeps the text from being trimmed
    have hTrim : trimText ((cs ++ ['}']).map .scalar) = (cs ++ ['}']).map .scalar := by
      rw [List.map_append]
      exact trimText_concat rfl _
    refine document_eq_ok_iff.mpr ⟨_, ?_, objectOf_eq_ok_iff.mpr hRead⟩
    rw [content, hTrim]
  · have hTrim : trimBytes (Utf8.encode (cs ++ ['}'])) = Utf8.encode (cs ++ ['}']) := by
      rw [Utf8.encode, List.flatMap_append]
      exact trimBytes_concat rfl _
    refine document_bytes_eq_ok_iff.mpr ⟨_, ?_, hRead⟩
    rw [hTrim, Utf8.decode_encode]

end Reply

namespace Report

/-- **The raw document is a faithful reply.** The object of a report that was read from bytes is the
object of the reply, with its members in their order. It can be written, what is written is
characters throughout, and it is a reply itself: as text and as UTF-8 it has the very same report,
with its object, its topics, the values of its fields, its table and its action.

That doubles read back as they were is not assumed here: it is proved of the digits that are
written. -/
theorem ofReply_print_raw {b : Bytes} {r : Report} (h : ofReply (.bytes b) = .ok r) :
    (Reply.bytes b).document = .ok r.raw ∧ ∃ cs : List Char,
      (Value.object r.raw).print? .spaced Reader.depthLimit = .ok (cs.map .scalar) ∧
        (Value.object r.raw).spaced = cs.map .scalar ∧
        ofReply (.text (cs.map .scalar)) = .ok r ∧
        ofReply (.bytes (Utf8.encode cs)) = .ok r := by
  obtain ⟨o, hDocument, rfl⟩ := ofReply_eq_ok_iff.mp h
  have hReadable := Reply.readable_joined_of_document hDocument
  obtain ⟨cs, hPrint, hText, hBytes⟩ :=
    Reply.document_print Separators.isPlain_spaced hReadable
  refine ⟨hDocument, cs, ?_, hPrint, ?_, ?_⟩
  · rw [← hPrint]
    exact Value.print?_of_readable hReadable .spaced
  · exact ofReply_eq_ok_iff.mpr ⟨o, hText, rfl⟩
  · exact ofReply_eq_ok_iff.mpr ⟨o, hBytes, rfl⟩

/-- A reply with a member given twice, and a surrogate pair before half of one. -/
theorem ofReply_print_raw_of_halves :
    let b := Utf8.encode
      "\x7b\"gnss\": 1, \"x\": [\"\\ud83d\\ude00\\ud800\"], \"gnss\": [Infinity, -0]\x7d".toList
    let o : Object := [("gnss", .list [.float (.infinite false), .int 0]),
      ("x", .list [.text [.scalar '😀', .surrogate 0]])]
    let printed : Text :=
      "\x7b\"gnss\": [Infinity, 0], \"x\": [\"\\ud83d\\ude00\\ud800\"]\x7d"
    ofReply (.bytes b) = .ok (ofDocument o) ∧ (Value.object o).spaced = printed ∧
      ofReply (.text printed) = .ok (ofDocument o) := by
  intro b o printed
  have hDocument : (Reply.bytes b).document = .ok o := by
    subst b o
    cbv
  have hReport : ofReply (.bytes b) = .ok (ofDocument o) :=
    ofReply_eq_ok_iff.mpr ⟨o, hDocument, rfl⟩
  have hPrinted : (Value.object o).spaced = printed := by
    subst o printed
    cbv
  obtain ⟨-, cs, -, hSpaced, hText, -⟩ := ofReply_print_raw hReport
  refine ⟨hReport, hPrinted, ?_⟩
  rw [← hPrinted]
  exact hSpaced ▸ hText

end Report

end OscMonitor
