import OscMonitor.Proofs.Document.Limits
import OscMonitor.Proofs.Document.Written

/-!
# What is written is read

What the reader reads is the document that is written, merged. Here is the converse: a text that
writes a document is read, unless containers are nested more deeply than the reader allows. That a
token can be read is nothing to ask for, as no other token is one of a document.

The reader is followed through the tokens of the document. Where it waits for a value and there is
room for the containers of the document, it takes these tokens and has the document, merged, with
the same containers open around it as before.

* `Reader.State.Takes` — what tokens make of a state.
* `Reader.State.takes_value` — what the tokens of a document do.
* `Value.read_of_writes` — a text that writes a document is read as the document, merged.
-/

namespace OscMonitor

open Lexeme

namespace Reader.State

/-! ## Tokens that are taken -/

/-- The tokens bring the reader from the one state to the other, whatever follows them and wherever
they stand. -/
def Takes (s : State) (tokens : List Token) (s' : State) : Prop :=
  ∀ ls rest : List Lexeme, Leads tokens ls rest → s.run ls = s'.run rest

variable {s s' s'' : State} {tokens tokens' : List Token}

theorem Takes.nil : s.Takes [] s := by
  rintro ls rest ⟨first, rfl, hFirst⟩
  obtain rfl := List.map_eq_nil_iff.mp hFirst
  rfl

theorem Takes.cons {token : Token} (hStep : ∀ text, s.step ⟨token, text⟩ = .ok s')
    (h : s'.Takes tokens s'') : s.Takes (token :: tokens) s'' := by
  rintro ls rest ⟨first, rfl, hFirst⟩
  obtain ⟨⟨_, text⟩, others, rfl, rfl, hOthers⟩ := List.map_eq_cons_iff.mp hFirst
  rw [List.cons_append, run, hStep]
  exact h _ _ ⟨others, rfl, hOthers⟩

theorem Takes.single {token : Token} (hStep : ∀ text, s.step ⟨token, text⟩ = .ok s') :
    s.Takes [token] s' := .cons hStep .nil

theorem Takes.append (h : s.Takes tokens s') (h' : s'.Takes tokens' s'') :
    s.Takes (tokens ++ tokens') s'' := by
  rintro ls rest ⟨first, rfl, hFirst⟩
  obtain ⟨before, after, rfl, hBefore, hAfter⟩ := List.map_eq_append_iff.mp hFirst
  rw [List.append_assoc]
  exact (h _ _ ⟨before, rfl, hBefore⟩).trans (h' _ _ ⟨after, rfl, hAfter⟩)

/-! ## Tokens of a document -/

mutual

/-- The tokens of a document are taken where a value is awaited, if there is room for it. -/
theorem takes_value : ∀ (w : Value) {waiting : State} {frames : List Frame},
    waiting.Awaits frames → frames.length + w.height 0 ≤ depthLimit →
      waiting.Takes w.tokens (after w.merged frames)
  | .list items, waiting, frames, hAwaits, hRoom => by
    rw [Value.height] at hRoom
    refine .cons (fun text => ?_) (takes_list items hRoom)
    rw [hAwaits ⟨.openList, text⟩ nofun]
    exact if_neg (by omega)
  | .object members, waiting, frames, hAwaits, hRoom => by
    rw [Value.height] at hRoom
    refine .cons (fun text => ?_) (takes_object members hRoom)
    rw [hAwaits ⟨.openObject, text⟩ nofun]
    exact if_neg (by omega)
  | .null, _, _, hAwaits, _ | .bool _, _, _, hAwaits, _ | .int _, _, _, hAwaits, _
  | .float _, _, _, hAwaits, _ | .text _, _, _, hAwaits, _ => .single fun _ => hAwaits _ nofun

theorem takes_list : ∀ (items : List Value) {frames : List Frame},
    frames.length + (Value.heightItems 0 items + 1) ≤ depthLimit →
      (firstItem frames).Takes (Value.listTokens items)
        (after (.list (Value.mergedItems items)) frames)
  | [], _, _ => .single fun _ => rfl
  | v :: items, frames, hRoom => by
    rw [Value.heightItems] at hRoom
    have hFirst := takes_value v (awaits_firstItem frames) (by rw [List.length_cons]; omega)
    exact hFirst.append (takes_items items (by omega))

/-- After an item come the others; those before it are kept in reverse. -/
theorem takes_items : ∀ (items : List Value) {v : Value} {before : List Value}
    {frames : List Frame}, frames.length + (Value.heightItems 0 items + 1) ≤ depthLimit →
      (after v (.list before :: frames)).Takes (Value.itemTokens items)
        (after (.list ((v :: before).reverse ++ Value.mergedItems items)) frames)
  | [], v, before, frames, _ => by
    rw [Value.mergedItems, List.append_nil]
    exact .single fun _ => rfl
  | w :: items, v, before, frames, hRoom => by
    rw [Value.heightItems] at hRoom
    have hNext := takes_value w (awaits_value (.list (v :: before) :: frames))
      (by rw [List.length_cons]; omega)
    have hOthers : (after w.merged (.list (v :: before) :: frames)).Takes (Value.itemTokens items)
        (after (.list ((w.merged :: v :: before).reverse ++ Value.mergedItems items)) frames) :=
      takes_items items (by omega)
    rw [List.reverse_cons, List.append_assoc] at hOthers
    exact .cons (fun _ => rfl) (hNext.append hOthers)

theorem takes_object : ∀ (members : List (Text × Value)) {frames : List Frame},
    frames.length + (Value.heightMembers 0 members + 1) ≤ depthLimit →
      (firstName frames).Takes (Value.objectTokens members)
        (after (.object (Keyed.collect [] (Value.mergedMembers members))) frames)
  | [], _, _ => .single fun _ => rfl
  | (key, v) :: members, frames, hRoom => by
    rw [Value.heightMembers] at hRoom
    have hFirst := takes_value v (awaits_value (.object [] key :: frames))
      (by rw [List.length_cons]; omega)
    exact .cons (fun _ => rfl) (.cons (fun _ => rfl)
      (hFirst.append (takes_members members (by omega))))

/-- After a member come the others; a name that comes again keeps its place. -/
theorem takes_members : ∀ (members : List (Text × Value)) {v : Value} {before : Object}
    {key : Text} {frames : List Frame},
    frames.length + (Value.heightMembers 0 members + 1) ≤ depthLimit →
      (after v (.object before key :: frames)).Takes (Value.memberTokens members)
        (after (.object (Keyed.collect (before.insert key v) (Value.mergedMembers members)))
          frames)
  | [], _, _, _, _, _ => .single fun _ => rfl
  | (other, w) :: members, v, before, key, frames, hRoom => by
    rw [Value.heightMembers] at hRoom
    have hNext := takes_value w (awaits_value (.object (before.insert key v) other :: frames))
      (by rw [List.length_cons]; omega)
    exact .cons (fun _ => rfl) (.cons (fun _ => rfl) (.cons (fun _ => rfl)
      (hNext.append (takes_members members (by omega)))))

end

end Reader.State

/-! ## Texts -/

/-- A byte order mark begins no document. -/
theorem Text.Writes.head_ne_mark {t : Text} {w : Value} (h : t.Writes w) :
    t.head? ≠ some (.ofNumber 0xFEFF) := by
  intro hMark
  obtain ⟨token, rest, hTokens, hGood, -⟩ := w.exists_first
  match t with
  | p :: t =>
    obtain rfl := Option.some.inj hMark
    rw [Writes, hTokens, scan, if_neg (by decide), List.map_cons, List.cons.injEq] at h
    rw [← h.1] at hGood
    exact hGood

/-- **What is written is read.** A text that writes a document is read as the document, merged, if
its containers are nested no more deeply than the reader allows. -/
theorem Value.read_of_writes {t : Text} {w : Value} (h : t.Writes w)
    (hHeight : w.height 0 ≤ Reader.depthLimit) : read t = .ok w.merged := by
  have hTakes := Reader.State.takes_value w (Reader.State.awaits_value [])
    ((Nat.zero_add _).trans_le hHeight)
  rw [read, if_neg h.head_ne_mark, hTakes _ [] ⟨scan t, (List.append_nil _).symm, h⟩]
  rfl

end OscMonitor
