import OscMonitor.Proofs.Document.Distinct
import OscMonitor.Reply.Document

/-!
# Replies that are read

When a reply is the document of an object, stage by stage: its content is text, the text reads as
a value, and the value is the object.

* `ReplyFault.exists_failure_eq` — a refusal is an error of the decoding.
* `document_bytes_eq_ok_iff` — a reply in bytes is the object that its text reads as.
* `distinct_of_document` — no object within a document has two members of one name.
-/

namespace OscMonitor

namespace ReplyFault

/-- A refusal is reported as an error of the decoding, with a message and with details. -/
theorem exists_failure_eq (fault : ReplyFault) :
    ∃ message details, fault.failure = .ofStage .decoding message details := by
  cases fault with
  | notJson fault t => cases fault <;> exact ⟨_, _, rfl⟩
  | _ => exact ⟨_, _, rfl⟩

theorem failure_code (fault : ReplyFault) :
    fault.failure.code = some (Text.ofString "DECODE_ERROR") := by
  obtain ⟨message, details, hFailure⟩ := fault.exists_failure_eq
  rw [hFailure]
  rfl

theorem failure_stage (fault : ReplyFault) : fault.failure.stage = .decoding := by
  obtain ⟨message, details, hFailure⟩ := fault.exists_failure_eq
  rw [hFailure]
  rfl

end ReplyFault

namespace Reply

theorem document_eq_ok_iff {r : Reply} {o : Object} :
    r.document = .ok o ↔ ∃ t, r.content = .ok t ∧ objectOf t = .ok o := by
  unfold document
  cases r.content with
  | error fault => simp [bind, Except.bind]
  | ok t => simp [bind, Except.bind]

theorem content_bytes_eq_ok_iff {b : Bytes} {t : Text} :
    content (.bytes b) = .ok t ↔ Utf8.decode (trimBytes b) = .ok t := by
  simp only [content]
  cases Utf8.decode (trimBytes b) <;> simp

theorem objectOf_eq_ok_iff {t : Text} {o : Object} :
    objectOf t = .ok o ↔ Value.read t = .ok (.object o) := by
  unfold objectOf
  cases Value.read t with
  | error fault => simp
  | ok v => cases v <;> simp

/-- A reply in bytes is the object that its text reads as. -/
theorem document_bytes_eq_ok_iff {b : Bytes} {o : Object} :
    document (.bytes b) = .ok o ↔
      ∃ t, Utf8.decode (trimBytes b) = .ok t ∧ Value.read t = .ok (.object o) := by
  simp only [document_eq_ok_iff, content_bytes_eq_ok_iff, objectOf_eq_ok_iff]

/-- No object within a document has two members of one name. -/
theorem distinct_of_document {r : Reply} {o : Object} (h : r.document = .ok o) :
    (Value.object o).Distinct := by
  obtain ⟨t, -, hObject⟩ := document_eq_ok_iff.mp h
  exact Value.distinct_of_read (objectOf_eq_ok_iff.mp hObject)

end Reply

end OscMonitor
