import OscMonitor.Proofs.Report.Raw

/-!
# Values that are kept as text

The temperature table and the echoed action keep plain texts in place of values. Nothing of a value
is lost by this but whether it was a text: the plain text of any other value is JSON that reads as
the value. Only the doubles that are not finite have words of their own, which are no JSON; within
a container they have the words that the reader knows.

* `Value.read_plain` — a value that is legible reads back from its plain text.
* `Report.plain_keeps` — what the texts of a report tell of the values of the reply.
-/

namespace OscMonitor

variable {P : Text → Prop} {depth : Nat}

/-! ## Plain texts -/

namespace Value

/-- A value that is neither a text nor a double that is not finite. -/
def IsLegible : Value → Prop
  | .text _ | .float .nan | .float (.infinite _) => False
  | _ => True

/-- The plain text of a legible value is JSON without spaces. -/
theorem plain_eq_compact {v : Value} (h : v.IsLegible) : v.plain = v.compact := by
  match v with
  | .int _ | .float (.finite ..) => rfl
  | .null | .bool _ | .list _ | .object _ => rfl

/-- A legible value reads back from its plain text. -/
theorem read_plain {v : Value} (hReadable : v.Readable Text.Joined Reader.depthLimit)
    (h : v.IsLegible) : read v.plain = .ok v := by
  rw [plain_eq_compact h]
  exact read_print Separators.isPlain_compact hReadable

/-- Legible values with the same plain text are the same. -/
theorem plain_injective {v w : Value} (hv : v.Readable Text.Joined Reader.depthLimit)
    (hw : w.Readable Text.Joined Reader.depthLimit) (hLegible : v.IsLegible)
    (hLegible' : w.IsLegible) (h : v.plain = w.plain) : v = w := by
  have hRead := read_plain hv hLegible
  rw [h, read_plain hw hLegible'] at hRead
  exact (Except.ok.inj hRead).symm

end Value

/-! ## The texts of a report -/

namespace Report

/-- A report keeps a text for a value of its reply: for an entry of the temperature table, or for
the action. -/
inductive Keeps (r : Report) (v : Value) (t : Text) : Prop where
  | entry {label : Text} (hValue : (Part.temperatureTable.members r.raw).get? label = some v)
    (hText : Keyed.get? label r.table = some t)
  | action (hValue : Topic.action? r.raw = some v) (hText : r.action = some t)

variable {o : Object} {v : Value} {t : Text}

/-- Every text that is kept is the plain text of its value. -/
theorem Keeps.eq_plain (h : (ofDocument o).Keeps v t) : t = v.plain := by
  cases h with
  | entry hValue hText =>
    change (Part.temperatureTable.members o).get? _ = some v at hValue
    rw [get?_table, hValue] at hText
    exact (Option.some.inj hText).symm
  | action hValue hText =>
    obtain ⟨w, hAction, -, rfl⟩ := action_eq_some_iff.mp hText
    obtain rfl := Option.some.inj (hAction.symm.trans hValue)
    rfl

theorem Keeps.readable (h : (ofDocument o).Keeps v t)
    (hReadable : (Value.object o).Readable P depth) : v.Readable P depth := by
  cases h with
  | entry hValue _ =>
    exact Value.Readable.of_mem_members (fun _ hFound => hReadable.of_value? hFound)
      (Keyed.mem_of_get?_eq_some hValue)
  | action hValue _ => exact hReadable.of_action? hValue

/-- **Plain text loses nothing but whether it was a text.** Every value within a reply in bytes has
a plain text, which can be written where there is room for what the reply nests: a text is its own,
and from that of any other value, unless it is a double that is not finite, the value is read back.
The temperature table and the echoed action keep these texts, so two values of this kind that
differ, of one reply or of two, never share a text there. -/
theorem plain_keeps {b : Bytes} {r : Report} (h : ofReply (.bytes b) = .ok r) :
    (∀ v, v.Occurs (.object r.raw) →
      (∀ limit, (Reply.bytes b).nesting ≤ limit → v.plain? limit = .ok v.plain) ∧
      (∀ t, v = .text t → v.plain = t) ∧ (v.IsLegible → Value.read v.plain = .ok v)) ∧
    (∀ label v, (Part.temperatureTable.members r.raw).get? label = some v →
      Keyed.get? label r.table = some v.plain) ∧
    (∀ v, Topic.action? r.raw = some v → v ≠ .null → r.action = some v.plain) ∧
    ∀ b' r', ofReply (.bytes b') = .ok r' → ∀ v v' t, v.IsLegible → v'.IsLegible →
      r.Keeps v t → r'.Keeps v' t → v = v' := by
  obtain ⟨o, hDocument, rfl⟩ := ofReply_eq_ok_iff.mp h
  have hReadable := Reply.readable_joined_of_document hDocument
  refine ⟨fun v hOccurs => ?_, fun label v hValue => ?_, fun v hValue hNull => ?_, ?_⟩
  · refine ⟨fun limit hLimit => ?_, ?_, Value.read_plain (hOccurs.readable hReadable)⟩
    · have hWithin := Reply.readable_of_document hDocument hLimit
      exact Value.plain?_of_readable (hOccurs.readable hWithin)
    · rintro t rfl
      rfl
  · change (Part.temperatureTable.members o).get? label = some v at hValue
    rw [get?_table, hValue]
    rfl
  · exact action_eq_some_iff.mpr ⟨v, hValue, hNull, rfl⟩
  · intro b' r' h' v v' t hLegible hLegible' hKeeps hKeeps'
    obtain ⟨o', hDocument', rfl⟩ := ofReply_eq_ok_iff.mp h'
    have hReadable' := Reply.readable_joined_of_document hDocument'
    refine Value.plain_injective (hKeeps.readable hReadable) (hKeeps'.readable hReadable') hLegible
      hLegible' ?_
    rw [← hKeeps.eq_plain, ← hKeeps'.eq_plain]

/-- A table with a list of a double beyond the format and of a text with half of a pair, and with a
negative zero; and an action that is a truth value. -/
theorem plain_keeps_of_infinity :
    let table : String := "\x7b\"a\": [1e999, \"\\ud83d\\ude00\\ud800\"], \"b\": -0.0\x7d"
    let b := Utf8.encode ("\x7b\"disciplining_parameters\": \x7b\"temperature_table\": " ++ table ++
      "\x7d, \"action_requested\": true\x7d").toList
    let items : Value := .list [.float (.infinite false), .text [.scalar '😀', .surrogate 0]]
    let entries : Object := [("a", items), ("b", .float (.zero true))]
    let o : Object :=
      [("disciplining_parameters", .object [("temperature_table", .object entries)]),
        ("action_requested", .bool true)]
    let text : Text := "[Infinity,\"\\ud83d\\ude00\\ud800\"]"
    ofReply (.bytes b) = .ok (ofDocument o) ∧
      Keyed.get? "a" (ofDocument o).table = some text ∧ Value.read text = .ok items ∧
      Keyed.get? "b" (ofDocument o).table = some (Text.ofString "-0.0") ∧
      (ofDocument o).action = some (Text.ofString "true") := by
  intro table b items entries o text
  have hDocument : (Reply.bytes b).document = .ok o := by
    rw [Reply.document_congr (Reply.content_bytes_encode _)]
    subst table items entries o
    cbv
  have hReport : ofReply (.bytes b) = .ok (ofDocument o) :=
    ofReply_eq_ok_iff.mpr ⟨o, hDocument, rfl⟩
  have hText : items.plain = text := by
    subst items text
    cbv
  obtain ⟨hOccurs, hTable, hAction, -⟩ := plain_keeps hReport
  -- the list occurs in the table
  have hItems : items.Occurs (.object o) :=
    .member List.mem_cons_self (.member List.mem_cons_self (.member List.mem_cons_self .self))
  have hNotNull : Value.bool true ≠ .null := by
    intro h
    cases h
  refine ⟨hReport, ?_, ?_, hTable "b" _ rfl, hAction _ rfl hNotNull⟩
  · rw [← hText]
    exact hTable "a" _ rfl
  · rw [← hText]
    exact (hOccurs items hItems).2.2 trivial

end Report

end OscMonitor
