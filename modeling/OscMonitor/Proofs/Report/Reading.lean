import OscMonitor.Proofs.Text.Keyed
import OscMonitor.Reply.Document
import OscMonitor.Report.Diagnostic

/-!
# Reading a report

What the steps of reading a report find, said by look-ups in the object that is read. With these
facts the steps need not be opened again.

* `get?_table`, `action_eq_some_iff` — the texts of a report are plain texts of values.
* `wire_eq_some_iff` — what a reply says about a field is what is looked up, unless that is null.
* `malformed?_eq_some_iff` — a malformed part has a value that is no object.
* `diagnostic?_eq_some_iff` — a field is reported when its value is refused.
-/

namespace OscMonitor

theorem Topic.mem_all (topic : Topic) : topic ∈ all := by
  cases topic <;> decide

namespace Report

/-- The report of a reply. -/
def ofReply (reply : Reply) : Except ReplyFault Report := reply.document.map ofDocument

theorem ofReply_eq_ok_iff {reply : Reply} {r : Report} :
    ofReply reply = .ok r ↔ ∃ o, reply.document = .ok o ∧ ofDocument o = r := by
  rw [ofReply]
  cases reply.document <;> simp [Except.map]

/-- The table has the plain text of each value that the reply has under a label. -/
theorem get?_table (o : Object) (label : Text) :
    Keyed.get? label (ofDocument o).table =
      ((Part.temperatureTable.members o).get? label).map Value.plain :=
  Keyed.get?_map_value Value.plain _ label

/-- The action is the plain text of what the reply says, unless that is null. -/
theorem action_eq_some_iff {o : Object} {t : Text} :
    (ofDocument o).action = some t ↔ ∃ v, Topic.action? o = some v ∧ v ≠ .null ∧ t = v.plain := by
  show actionOf o = some t ↔ _
  unfold actionOf
  split
  · next h => simp [h]
  · next h => simp [h]
  · next v hNull h =>
    have hNe : v ≠ .null := by
      rintro rfl
      exact hNull rfl
    simp [h, hNe, eq_comm]

theorem mem_topics_ofDocument {o : Object} {topic : Topic} :
    topic ∈ (ofDocument o).topics ↔ topic.isPresent o = true := by
  rw [ofDocument, List.mem_filter]
  exact and_iff_right topic.mem_all

end Report

/-! ## Values -/

/-- A value that is an object. -/
def Value.IsObject (v : Value) : Prop := ∃ m, v = .object m

theorem Object.getNonNull?_eq_some_iff {o : Object} {key : Text} {v : Value} :
    o.getNonNull? key = some v ↔ o.get? key = some v ∧ v ≠ .null := by
  unfold getNonNull?
  split
  · -- null is there, but not found
    next h =>
    rw [h]
    refine iff_of_false (by simp) ?_
    rintro ⟨hNull, hNe⟩
    exact hNe (Option.some.inj hNull).symm
  · next h =>
    refine ⟨fun hGet => ⟨hGet, ?_⟩, And.left⟩
    rintro rfl
    exact h hGet

/-! ## Parts -/

namespace Part

/-- A malformed part has a value that is no object. -/
theorem malformed?_eq_some_iff {o : Object} {p : Part} {v : Value} :
    p.malformed? o = some v ↔ p.value? o = some v ∧ ¬ v.IsObject := by
  unfold malformed?
  split
  · -- an object is found, but not malformed
    next m h =>
    rw [h]
    refine iff_of_false (by simp) ?_
    rintro ⟨hValue, hNot⟩
    exact hNot ⟨m, (Option.some.inj hValue).symm⟩
  · next h =>
    refine ⟨fun hValue => ⟨hValue, ?_⟩, And.left⟩
    rintro ⟨m, rfl⟩
    exact h m hValue

theorem malformed?_eq_none_of_value? {o : Object} {p : Part}
    (h : ∀ v, p.value? o = some v → v.IsObject) : p.malformed? o = none := by
  rw [Option.eq_none_iff_forall_ne_some]
  intro v hMalformed
  obtain ⟨hValue, hNot⟩ := malformed?_eq_some_iff.mp hMalformed
  exact hNot (h v hValue)

theorem value?_calibration (o : Object) :
    (block .calibration).value? o =
      (parameters.members o).getNonNull? (block .calibration).name := rfl

theorem value?_temperatureTable (o : Object) :
    temperatureTable.value? o = (parameters.members o).getNonNull? temperatureTable.name := rfl

theorem members_of_value?_eq_none {o : Object} {p : Part} (h : p.value? o = none) :
    p.members o = [] := by
  rw [members, h]
  rfl

end Part

/-! ## Fields -/

namespace Field

/-- What a reply says about a field is what is looked up for it, unless that is null. -/
theorem wire_eq_some_iff {f : Field} {o : Object} {v : Value} :
    f.wire o = some v ↔ f.lookup ((Part.block f.block).members o) = some v ∧ v ≠ .null := by
  unfold wire
  split
  · -- null is looked up, but says nothing
    next h =>
    rw [h]
    refine iff_of_false (by simp) ?_
    rintro ⟨hNull, hNe⟩
    exact hNe (Option.some.inj hNull).symm
  · next h =>
    refine ⟨fun hLookup => ⟨hLookup, ?_⟩, And.left⟩
    rintro rfl
    exact h hLookup

theorem wire_of_value?_eq_none {f : Field} {o : Object}
    (h : (Part.block f.block).value? o = none) : f.wire o = none := by
  rw [wire, Part.members_of_value?_eq_none h]
  rfl

/-- A field is reported when what the reply says about it is refused. -/
theorem diagnostic?_eq_some_iff {f : Field} {o : Object} {d : Diagnostic} :
    f.diagnostic? o = some d ↔
      ∃ v reason, f.wire o = some v ∧ f.kind.accept v = .error reason ∧
        d = .invalid f v reason := by
  unfold diagnostic?
  cases f.wire o with
  | none => simp
  | some v =>
    dsimp only
    cases hAccept : f.kind.accept v with
    | ok x => simp [hAccept]
    | error reason => simp [hAccept, eq_comm]

end Field

end OscMonitor
