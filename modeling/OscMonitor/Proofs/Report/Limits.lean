import Mathlib
import OscMonitor.Proofs.Document.Limits
import OscMonitor.Proofs.Report.Reading
import OscMonitor.Proofs.Reply.Document
import OscMonitor.Report.Limits

/-!
# Reports within limits

Writing can fail, but nothing that is read from a reply fails to be written: its integers have no
more digits than are read, which are as many as are written, and an integer that a field makes of a
text or of a double has no more either. So reading a report fails only with the reply, and every
report that is read can be listed and printed.

* `Kind.readable_of_accept` — what a field takes from a readable value is readable.
* `ofDocument?_of_readable`, `lines?_of_readable` — reading and listing meet no fault.
* `decode?_total` — a reply is refused, or its report can be read and presented.
-/

namespace OscMonitor

variable {P : Text → Prop} {depth : Nat}

/-! ## Writing -/

namespace Value

variable {v : Value}

theorem print?_of_readable (h : v.Readable P depth) (s : Separators) :
    v.print? s depth = .ok (v.print s) := by
  rw [print?, check_of_readable h]
  rfl

theorem display?_of_readable (h : v.Readable P depth) : v.display? depth = .ok v.display := by
  rw [display?, check_of_readable h]
  rfl

theorem plain?_of_readable (h : v.Readable P depth) : v.plain? depth = .ok v.plain := by
  rw [plain?, check_of_readable h]
  rfl

theorem listed?_of_readable (h : v.Readable P depth) (precision : Option Nat) :
    v.listed? depth precision = .ok (v.listed precision) := by
  rw [listed?, check_of_readable h]
  rfl

end Value

/-! ## Parts of readable objects -/

namespace Value.Readable

theorem of_mem {o : Object} (h : (Value.object o).Readable P depth) {m : Text × Value}
    (hm : m ∈ o) : m.2.Readable P depth := by
  obtain ⟨room, rfl, -, -, hMembers⟩ := readable_object_iff.mp h
  exact (hMembers m hm).mono (Nat.le_succ _) fun _ h => h

theorem of_get? {o : Object} (h : (Value.object o).Readable P depth) {key : Text} {v : Value}
    (hGet : o.get? key = some v) : v.Readable P depth :=
  h.of_mem (Keyed.mem_of_get?_eq_some hGet)

/-- The members of a value that is found are readable. -/
theorem of_mem_members {found : Option Value} (h : ∀ v, found = some v → v.Readable P depth)
    {m : Text × Value} (hm : m ∈ Value.members found) : m.2.Readable P depth := by
  unfold members at hm
  split at hm
  · exact (h _ rfl).of_mem hm
  · cases hm

theorem of_value? {o : Object} (h : (Value.object o).Readable P depth) {p : Part} {v : Value}
    (hValue : p.value? o = some v) : v.Readable P depth := by
  -- a part stands in the reply or within the disciplining parameters
  have hInParameters : ∀ {key : Text}, Part.value?.inParameters o key = some v →
      v.Readable P depth := by
    intro key hNonNull
    have hGet := (Object.getNonNull?_eq_some_iff.mp hNonNull).1
    exact of_mem_members (fun _ hFound => h.of_get? hFound) (Keyed.mem_of_get?_eq_some hGet)
  cases p with
  | block b =>
    cases b with
    | calibration => exact hInParameters hValue
    | _ => exact h.of_get? hValue
  | parameters => exact h.of_get? hValue
  | temperatureTable => exact hInParameters hValue

theorem of_wire {o : Object} (h : (Value.object o).Readable P depth) {f : Field} {v : Value}
    (hWire : f.wire o = some v) : v.Readable P depth := by
  have hLookup := (Field.wire_eq_some_iff.mp hWire).1
  have hMembers : ∀ {key : Text}, ((Part.block f.block).members o).get? key = some v →
      v.Readable P depth := fun hGet =>
    of_mem_members (fun _ hFound => h.of_value? hFound) (Keyed.mem_of_get?_eq_some hGet)
  unfold Field.lookup at hLookup
  split at hLookup
  · next hKey => exact hMembers (hLookup ▸ hKey)
  · exact hMembers hLookup

theorem of_action? {o : Object} (h : (Value.object o).Readable P depth) {v : Value}
    (hAction : Topic.action? o = some v) : v.Readable P depth := by
  unfold Topic.action? at hAction
  split at hAction
  · next hKey => exact h.of_get? (hAction ▸ hKey)
  · exact h.of_get? hAction

end Value.Readable

/-! ## Fields -/

/-- An integer that is read from a text has no more digits than are read. -/
theorem Numeral.decimalLength_of_integer {t : Text} {n : Int} (h : integer t = .ok n) :
    decimalLength n.natAbs ≤ digitLimit := by
  -- of all refusals only that of too many digits matters here
  unfold integer at h
  split at h
  · next bare _ =>
    unfold plainInteger at h
    dsimp only at h
    split at h
    · cases h
    split at h
    · cases h
    next hLimit =>
    split at h
    · cases h
    next hPlain =>
    obtain rfl := Except.ok.inj h
    have hNonempty : (splitDigits (splitSign bare).2).1 ≠ [] := by
      intro hNil
      simp [hNil] at hPlain
    have hAbs : ∀ (negative : Bool) (m : Nat), (signed negative m).natAbs = m := by
      intro negative m
      cases negative <;> simp [signed]
    rw [hAbs]
    exact (decimalLength_digitsValue_le hNonempty).trans (Nat.le_of_not_lt hLimit)
  · cases h

theorem Accept.decimalLength_of_integer {v : Value} (hv : v.Readable P depth) {n : Int}
    (h : integer v = .ok n) : decimalLength n.natAbs ≤ Numeral.digitLimit := by
  unfold integer at h
  split at h
  case h_1 =>
    obtain rfl := Except.ok.inj h
    exact Value.readable_int_iff.mp hv
  case h_2 =>
    -- a double that is taken fits a word, which is far below the limit
    unfold integerDouble at h
    split at h
    · split at h
      · cases h
      · next m _ =>
        split at h
        · next hWord =>
          obtain rfl := Except.ok.inj h
          have hLt : m.natAbs < 10 ^ 19 := by
            simp only [wordBound] at hWord
            omega
          have hLength : decimalLength m.natAbs ≤ 19 :=
            (decimalLength_le_iff (by decide)).mpr hLt
          exact hLength.trans (by decide)
        · cases h
    · cases h
  case h_3 t =>
    unfold integerText at h
    split at h
    · split at h
      · next hInteger =>
        obtain rfl := Except.ok.inj h
        exact Numeral.decimalLength_of_integer hInteger
      · cases h
      · cases h
    · cases h
  all_goals cases h

/-- What a field takes from a readable value is readable. -/
theorem Kind.readable_of_accept {k : Kind} {v : Value} (hv : v.Readable P depth) {x : k.Carrier}
    (h : k.accept v = .ok x) : (k.toValue x).Readable (fun _ => True) 0 := by
  cases k with
  | integer => exact .int (Accept.decimalLength_of_integer hv h)
  | natural =>
    have hInteger : Accept.integer v = .ok (Int.ofNat x) := by
      change Accept.natural v = .ok x at h
      unfold Accept.natural at h
      split at h
      · next hInteger =>
        obtain rfl := Except.ok.inj h
        exact hInteger
      · cases h
      · cases h
    exact .int (Accept.decimalLength_of_integer hv hInteger)
  | real => exact .float
  | flag => exact .bool
  | text => exact .text trivial

theorem Kind.accept?_of_readable (k : Kind) {v : Value} (hv : v.Readable P depth) :
    k.accept? v = .ok (k.accept v) := by
  unfold accept?
  split
  · rw [Text.ofInt?_eq_ok (Value.readable_int_iff.mp hv)]
    rfl
  · rfl

theorem Field.decode_eq_some_iff {f : Field} {said : Option Value} {x : f.kind.Carrier} :
    f.decode said = some x ↔ ∃ v, said = some v ∧ f.kind.accept v = .ok x := by
  cases said with
  | none => simp [decode]
  | some v =>
    simp only [decode, Option.some.injEq, exists_eq_left']
    cases f.kind.accept v <;> simp [Except.toOption]

/-- Decoding a field meets no fault. -/
theorem Field.decode?_of_readable (f : Field) {said : Option Value}
    (h : ∀ v, said = some v → v.Readable P depth) : f.decode? depth said = .ok (f.decode said) := by
  cases said with
  | none => rfl
  | some v =>
    have hv := h v rfl
    rw [decode?, decode, Kind.accept?_of_readable f.kind hv]
    cases f.kind.accept v with
    | ok x => rfl
    | error reason =>
      show (do discard (v.display? depth); return none) = _
      rw [Value.display?_of_readable hv]
      rfl

/-! ## Reports -/

/-- When no item meets a fault, nor does the list of them. -/
theorem List.mapM_eq_ok {α β ε : Type} {f : α → Except ε β} {g : α → β} {items : List α}
    (h : ∀ x ∈ items, f x = .ok (g x)) : items.mapM f = .ok (items.map g) := by
  induction items with
  | nil => rfl
  | cons x items ih =>
    obtain ⟨hx, hItems⟩ := List.forall_mem_cons.mp h
    rw [List.mapM_cons, hx, ih hItems]
    rfl

namespace Report

variable {o : Object}

theorem tableOf?_of_readable (h : (Value.object o).Readable P depth) :
    tableOf? depth o = .ok (tableOf o) := by
  refine List.mapM_eq_ok fun m hm => ?_
  have hm : m.2.Readable P depth :=
    Value.Readable.of_mem_members (fun _ hValue => h.of_value? hValue) hm
  show (do return (m.1, ← m.2.plain? depth)) = _
  rw [Value.plain?_of_readable hm]
  rfl

theorem actionOf?_of_readable (h : (Value.object o).Readable P depth) :
    actionOf? depth o = .ok (actionOf o) := by
  cases hAction : Topic.action? o with
  | none => simp only [actionOf?, actionOf, hAction]
  | some v =>
    have hPlain := Value.plain?_of_readable (h.of_action? hAction)
    cases v with
    | null => simp only [actionOf?, actionOf, hAction]
    | _ =>
      simp only [actionOf?, actionOf, hAction, hPlain]
      rfl

/-- Reading the report of a readable object meets no fault. -/
theorem ofDocument?_of_readable (h : (Value.object o).Readable P depth) :
    ofDocument? depth o = .ok (ofDocument o) := by
  have hField : ∀ f : Field, f.decode? depth (f.wire o) = .ok (f.decode (f.wire o)) :=
    fun f => f.decode?_of_readable fun _ hWire => h.of_wire hWire
  unfold ofDocument?
  simp only [hField, tableOf?_of_readable h, actionOf?_of_readable h]
  rfl

end Report

namespace Listing

variable {r : Report}

theorem fieldText?_of_readable {f : Field} (h : (fieldValue r f).Readable P depth) :
    fieldText? depth r f = .ok (fieldText r f) := by
  rw [fieldText?, Value.listed?_of_readable h]
  rfl

theorem fieldLine?_of_readable {f : Field} (h : (fieldValue r f).Readable P depth) (tabs : Nat) :
    fieldLine? depth r tabs f = .ok (fieldLine r tabs f) := by
  rw [fieldLine?, fieldText?_of_readable h]
  rfl

variable (h : ∀ f, (fieldValue r f).Readable P depth)
include h

theorem mapM_fieldLine? (tabs : Nat) (fields : List Field) :
    fields.mapM (fieldLine? depth r tabs) = .ok (fields.map (fieldLine r tabs)) :=
  List.mapM_eq_ok fun f _ => fieldLine?_of_readable (h f) tabs

theorem progressLines?_of_readable :
    progressLines? depth r = .ok (progressLine? r).toList := by
  unfold progressLines? progressLine?
  cases r.phase.label? with
  | none => rfl
  | some label =>
    simp only [Value.listed?_of_readable (h _), fieldText?_of_readable (h _)]
    rfl

theorem calibrationLines?_of_readable : calibrationLines? depth r = .ok (calibrationLines r) := by
  unfold calibrationLines? calibrationLines
  split
  · rw [mapM_fieldLine? h]
    rfl
  · rfl

/-- Listing a topic meets no fault when the values of all fields are readable. -/
theorem topicLines?_of_readable (topic : Topic) :
    topicLines? depth r topic = .ok (topicLines r topic) := by
  cases topic with
  | disciplining =>
    rw [topicLines?, mapM_fieldLine? h, progressLines?_of_readable h]
    rfl
  | oscillator | clock | gnss =>
    rw [topicLines?, mapM_fieldLine? h]
    rfl
  | discipliningParameters =>
    rw [topicLines?, calibrationLines?_of_readable h]
    rfl
  | actionRequested => rfl

end Listing

namespace Report

open Listing

theorem lines?_of_readable {r : Report} (h : ∀ f, (fieldValue r f).Readable P depth) :
    r.lines? depth = .ok r.lines := by
  rw [lines?, List.mapM_eq_ok fun topic _ => topicLines?_of_readable h topic]
  show Except.ok (List.map (topicLines r) r.topics).flatten = _
  rw [← List.flatMap_def]
  rfl

/-- The values of the fields of a readable object are readable. -/
theorem readable_fieldValue {o : Object} (h : (Value.object o).Readable P depth) (f : Field) :
    (fieldValue (ofDocument o) f).Readable (fun _ => True) 0 := by
  unfold fieldValue
  split
  · next x hValue =>
    obtain ⟨v, hWire, hAccept⟩ := Field.decode_eq_some_iff.mp hValue
    exact Kind.readable_of_accept (h.of_wire hWire) hAccept
  · exact .null

end Report

/-- The greatest number of brackets that are open at once within a reply that is text. -/
def Reply.nesting (r : Reply) : Nat :=
  match r.content with
  | .ok t => t.nesting
  | .error _ => 0

/-- The object of a reply is readable, with containers nested no more deeply than its brackets. -/
theorem Reply.readable_of_document {r : Reply} {o : Object} (h : r.document = .ok o) {limit : Nat}
    (hLimit : r.nesting ≤ limit) : (Value.object o).Readable (fun _ => True) limit := by
  obtain ⟨t, hContent, hObject⟩ := document_eq_ok_iff.mp h
  rw [nesting, hContent] at hLimit
  exact Value.readable_of_read (S := fun _ => True) (fun _ _ _ _ _ _ => trivial)
    (fun _ _ => trivial) hLimit (objectOf_eq_ok_iff.mp hObject)

/-- What nests more deeply than the reader allows is no reply. -/
theorem Reply.nesting_le_of_document {r : Reply} {o : Object} (h : r.document = .ok o) :
    r.nesting ≤ Reader.depthLimit := by
  obtain ⟨t, hContent, hObject⟩ := document_eq_ok_iff.mp h
  rw [nesting, hContent]
  exact Text.nesting_le_of_read (objectOf_eq_ok_iff.mp hObject)

namespace Report

/-- **Decoding fails only with the reply, and what is decoded can be presented.** Where there is
room for as many containers as the reply nests, or the reply nests more than the reader allows, the
only fault of decoding is that the reply is refused, which is reported as an error of the decoding.
Every report can be listed and its object printed; and no integer in the object or in a field has
more digits than are written. -/
theorem decode?_total {limit : Nat} {reply : Reply}
    (hNesting : reply.nesting ≤ limit ∨ Reader.depthLimit < reply.nesting) :
    decode? limit reply = (ofReply reply).mapError .refused ∧
      (∀ fault, ofReply reply = .error fault →
        fault.failure.code = some (Text.ofString "DECODE_ERROR")) ∧
      ∀ r, ofReply reply = .ok r →
        r.lines? limit = .ok r.lines ∧
          (Value.object r.raw).print? .spaced limit = .ok (Value.object r.raw).spaced ∧
          (Value.object r.raw).Readable (fun _ => True) limit ∧
          ∀ f, (Listing.fieldValue r f).Readable (fun _ => True) 0 := by
  -- a reply that is read leaves room for what it nests
  have hReadable : ∀ o, reply.document = .ok o →
      (Value.object o).Readable (fun _ => True) limit := by
    intro o hDocument
    refine Reply.readable_of_document hDocument (hNesting.resolve_right fun hDeep => ?_)
    exact absurd (Reply.nesting_le_of_document hDocument) (Nat.not_le_of_lt hDeep)
  refine ⟨?_, fun fault _ => fault.failure_code, fun r hReport => ?_⟩
  · unfold decode? ofReply
    cases hDocument : reply.document with
    | error fault => rfl
    | ok o =>
      dsimp only
      rw [ofDocument?_of_readable (hReadable o hDocument)]
      rfl
  · obtain ⟨o, hDocument, rfl⟩ := ofReply_eq_ok_iff.mp hReport
    have hObject := hReadable o hDocument
    have hFields := readable_fieldValue hObject
    refine ⟨?_, Value.print?_of_readable hObject .spaced, hObject, hFields⟩
    exact lines?_of_readable fun f => (hFields f).mono (Nat.zero_le _) fun _ h => h

/-- A reply with an integer where a text is expected, and with a list where an integer is. -/
theorem decode?_total_of_clock :
    let reply : Reply := .text "\x7b\"clock\": \x7b\"class\": 6, \"offset\": [[]]\x7d\x7d"
    let o : Object := [("clock", .object [("class", .int 6), ("offset", .list [.list []])])]
    reply.nesting = 4 ∧ decode? 400 reply = .ok (ofDocument o) ∧
      (ofDocument o).lines? 400 = .ok (ofDocument o).lines := by
  intro reply o
  have hDocument : reply.document = .ok o := by cbv
  have hNesting : reply.nesting = 4 := by cbv
  have hLimit : reply.nesting ≤ 400 := by
    rw [hNesting]
    decide
  obtain ⟨hDecode, -, hPresented⟩ := decode?_total (.inl hLimit)
  have hReport : ofReply reply = .ok (ofDocument o) := ofReply_eq_ok_iff.mpr ⟨o, hDocument, rfl⟩
  refine ⟨hNesting, ?_, (hPresented _ hReport).1⟩
  rw [hDecode, hReport]
  rfl

end Report

end OscMonitor
