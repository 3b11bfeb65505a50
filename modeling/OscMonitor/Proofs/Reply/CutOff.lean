import Mathlib
import OscMonitor.Proofs.Document.Nesting
import OscMonitor.Proofs.Reply.Document
import OscMonitor.Proofs.Reply.Forms

/-!
# Replies that are cut off

A reply is an object followed by terminators. What lacks a part of the object is no reply, wherever
it is cut off: between tokens, within one, or within the bytes of a character. What lacks only
terminators is the same reply.

* `eq_trimBytes_of_document` — of the bytes that matter, no beginning but all of them is a reply.
* `document_take` — the first bytes of a reply are the same reply or none.
-/

namespace OscMonitor.Reply

/-- Nothing at all is no reply. -/
theorem document_nil_ne (o : Object) : document (.bytes []) ≠ .ok o := by
  have hRead : Value.read [] = .error (.malformed .expectingValue []) := by cbv
  rw [Ne, document_bytes_eq_ok_iff]
  rintro ⟨t, hText, hObject⟩
  cases hText
  rw [hRead] at hObject
  cases hObject

theorem document_trimBytes (b : Bytes) : document (.bytes (trimBytes b)) = document (.bytes b) := by
  obtain ⟨z, hz, hTerminators⟩ := exists_terminators b
  conv_rhs => rw [hz]
  rw [document_append_terminators hTerminators]

theorem isTerminator_of_isGap {c : Char} (h : Lexeme.isGap (.scalar c) = true) :
    isTerminator c.toNat = true := by
  simp only [Lexeme.isGap, Bool.or_eq_true, beq_iff_eq, CodePoint.scalar.injEq] at h
  obtain ((rfl | rfl) | rfl) | rfl := h <;> decide

/-- Of the bytes of a reply that matter, no beginning is a reply but all of them. -/
theorem eq_trimBytes_of_document {b p : Bytes} {o o' : Object} (hAll : document (.bytes b) = .ok o)
    (hp : p <+: trimBytes b) (hBegin : document (.bytes p) = .ok o') : p = trimBytes b := by
  obtain ⟨t, hText, hRead⟩ := document_bytes_eq_ok_iff.mp hAll
  obtain ⟨t', hText', hRead'⟩ := document_bytes_eq_ok_iff.mp hBegin
  -- trimming may take more from the beginning: what is left of it is a beginning all the more
  obtain ⟨rest, hRest⟩ := (trimBytes_isPrefix p).trans hp
  rw [← hRest] at hText
  obtain ⟨cs, rfl, rfl⟩ := Utf8.decode_append_eq_ok hText hText'
  have hContainer : ¬ (Value.object o).IsLeaf := id
  obtain ⟨gaps, hGaps, hIsGap⟩ := Nesting.lacks_gaps_of_read hContainer hRead
    (List.prefix_append t' _) hRead'
  -- the characters that are missing are gaps, and so terminators
  have hcs : ∀ c ∈ cs, isTerminator c.toNat = true := by
    intro c hc
    refine isTerminator_of_isGap (hIsGap _ ?_)
    rw [← List.append_cancel_left hGaps]
    exact List.mem_map_of_mem hc
  -- trimmed bytes do not end in any
  have hNil : Utf8.encode cs = [] :=
    eq_nil_of_trimBytes_eq_append hRest.symm (encode_of_isTerminator hcs)
  rw [hNil, List.append_nil] at hRest
  refine hp.eq_of_length_le ?_
  rw [← hRest]
  exact (trimBytes_isPrefix p).length_le

/-- The first bytes of a reply are the same reply when all that matter are among them, and else
they are none. -/
theorem document_take {b : Bytes} {o : Object} (h : document (.bytes b) = .ok o) (n : Nat) :
    if (trimBytes b).length ≤ n then document (.bytes (b.take n)) = .ok o
    else ∃ fault, document (.bytes (b.take n)) = .error fault := by
  obtain ⟨z, hz, hTerminators⟩ := exists_terminators b
  -- the first bytes are those of what matters, and then those of the terminators
  have hTake : b.take n = (trimBytes b).take n ++ z.take (n - (trimBytes b).length) := by
    conv_lhs => rw [hz, List.take_append]
  split
  · next hLe =>
    rw [hTake, List.take_of_length_le hLe, document_append_terminators, document_trimBytes, h]
    exact fun x hx => hTerminators x (List.mem_of_mem_take hx)
  · -- a part of what matters is cut off, so it would be a beginning that is a reply
    next hLt =>
    rw [hTake, Nat.sub_eq_zero_of_le (Nat.le_of_not_le hLt), List.take_zero, List.append_nil]
    cases hCut : document (.bytes ((trimBytes b).take n)) with
    | error fault => exact ⟨fault, rfl⟩
    | ok o' =>
      have hLength := congrArg List.length (eq_trimBytes_of_document h (List.take_prefix n _) hCut)
      rw [List.length_take] at hLength
      omega

end OscMonitor.Reply
