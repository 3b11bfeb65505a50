import Mathlib
import OscMonitor.Proofs.Exchange.Stages
import OscMonitor.Proofs.Report.Reading
import OscMonitor.Report.Listing

/-!
# Canonical replies

Of the many spellings that a report can be read from, one is canonical: every topic that there is,
with every field of its blocks under its key, known values in their plain spelling and null for
the unknown ones. Reading is a normalisation: the canonical reply of a report is read as the same
report, and nothing in it is left out.

* `get?_canonical` — the canonical reply has the topics of the report and nothing else.
* `value?_block_canonical` — it has the blocks that the first reply had, all of them well formed.
* `wire_canonical` — it says about each field what the report knows.
* `ofDocument_canonical` — reading it gives back the report, without a diagnostic.
-/

namespace OscMonitor

/-! ## Keys -/

theorem Block.nodup_keys (b : Block) : (b.fields.map Field.key).Nodup := by
  cases b <;> decide +kernel

namespace Topic

theorem eq_of_key_eq {s t : Topic} (h : s.key = t.key) : s = t := by
  revert h
  cases s <;> cases t <;> decide

theorem key_ne_formerActionKey (topic : Topic) : topic.key ≠ formerActionKey := by
  cases topic <;> decide

end Topic

namespace Report

/-! ## The canonical reply of a report -/

/-- The object that spells what is known of a block. -/
def blockObject (r : Report) (b : Block) : Object :=
  b.fields.map fun f => (f.key, Listing.fieldValue r f)

/-- The object that spells the temperature table. -/
def tableObject (r : Report) : Object := r.table.map fun (label, text) => (label, .text text)

/-- The value that spells what is known of a topic. -/
def topicValue (r : Report) : Topic → Value
  | .disciplining => .object (r.blockObject .disciplining)
  | .oscillator => .object (r.blockObject .oscillator)
  | .clock => .object (r.blockObject .clock)
  | .gnss => .object (r.blockObject .gnss)
  | .discipliningParameters =>
    .object
      [(Block.calibration.name,
          if r.calibrated then .object (r.blockObject .calibration) else .null),
        (Part.temperatureTable.name, .object r.tableObject)]
  | .actionRequested => (r.action.map .text).getD .null

/-- The canonical reply of a report. -/
def canonical (r : Report) : Object := r.topics.map fun topic => (topic.key, r.topicValue topic)

theorem get?_canonical (r : Report) (topic : Topic) :
    r.canonical.get? topic.key = if topic ∈ r.topics then some (r.topicValue topic) else none :=
  Keyed.get?_map_items Topic.key r.topicValue fun _ _ => Topic.eq_of_key_eq

theorem get?_formerActionKey_canonical (r : Report) :
    r.canonical.get? Topic.formerActionKey = none := by
  rw [Keyed.get?_eq_none_iff, Keyed.keys, canonical, List.map_map, List.mem_map]
  rintro ⟨topic, -, hKey⟩
  exact topic.key_ne_formerActionKey hKey

/-- A field of a block that is there is spelled as it is known. -/
theorem lookup_blockObject (r : Report) (f : Field) :
    f.lookup (r.blockObject f.block) = some (Listing.fieldValue r f) := by
  have hMem : f ∈ f.block.fields := (Field.mem_fields_iff f f.block).mpr rfl
  have hApart : ∀ g ∈ f.block.fields, g.key = f.key → g = f := by
    intro g hg hKey
    exact List.inj_on_of_nodup_map f.block.nodup_keys hg hMem hKey
  have hKey : (r.blockObject f.block).get? f.key = some (Listing.fieldValue r f) := by
    rw [blockObject, Keyed.get?_map_items Field.key (Listing.fieldValue r) hApart, if_pos hMem]
  rw [Field.lookup, hKey]

/-! ## Reading it -/

theorem isPresent_eq_has {o : Object} {topic : Topic} (h : topic ≠ .actionRequested) :
    topic.isPresent o = o.has topic.key := by
  cases topic with
  | actionRequested => exact absurd rfl h
  | _ => rfl

/-- The topics of the canonical reply are those of the report. -/
theorem isPresent_canonical (o : Object) (topic : Topic) :
    topic.isPresent (ofDocument o).canonical = topic.isPresent o := by
  rw [Bool.eq_iff_iff, ← mem_topics_ofDocument (o := o)]
  have hHas : (ofDocument o).canonical.has topic.key = true ↔ topic ∈ (ofDocument o).topics := by
    rw [Keyed.has, get?_canonical]
    by_cases hTopic : topic ∈ (ofDocument o).topics <;> simp [hTopic]
  by_cases hAction : topic = .actionRequested
  · -- the canonical reply has the action under its key only, never under the older one
    subst hAction
    rw [Topic.isPresent, Bool.or_eq_true, hHas, Keyed.has, get?_formerActionKey_canonical]
    simp
  · rw [isPresent_eq_has hAction, hHas]

theorem topics_canonical (o : Object) :
    (ofDocument (ofDocument o).canonical).topics = (ofDocument o).topics := by
  refine List.filter_congr fun topic _ => ?_
  exact isPresent_canonical o topic

/-- A topic of a reply that is no echo of an action, in the canonical reply. -/
theorem get?_canonical_ofDocument (o : Object) (topic : Topic) (h : topic ≠ .actionRequested) :
    (ofDocument o).canonical.get? topic.key =
      (o.get? topic.key).map fun _ => (ofDocument o).topicValue topic := by
  have hMem : topic ∈ (ofDocument o).topics ↔ (o.get? topic.key).isSome := by
    rw [mem_topics_ofDocument, isPresent_eq_has h, Keyed.has]
  rw [get?_canonical]
  cases hGet : o.get? topic.key with
  | none => simp [hMem, hGet]
  | some v => simp [hMem, hGet]

theorem value?_parameters_canonical (o : Object) :
    Part.parameters.value? (ofDocument o).canonical =
      (Part.parameters.value? o).map fun _ =>
        (ofDocument o).topicValue .discipliningParameters :=
  get?_canonical_ofDocument o .discipliningParameters (by decide)

/-- The canonical reply has the blocks that the first reply had, all of them well formed. -/
theorem value?_block_canonical (o : Object) (b : Block) :
    (Part.block b).value? (ofDocument o).canonical =
      ((Part.block b).value? o).map fun _ => .object ((ofDocument o).blockObject b) := by
  cases b with
  | disciplining => exact get?_canonical_ofDocument o .disciplining (by decide)
  | oscillator => exact get?_canonical_ofDocument o .oscillator (by decide)
  | clock => exact get?_canonical_ofDocument o .clock (by decide)
  | gnss => exact get?_canonical_ofDocument o .gnss (by decide)
  | calibration =>
    -- the one block within another topic, spelled as null there when the first reply lacked it
    have hCalibrated : (ofDocument o).calibrated =
        ((Part.block .calibration).value? o).isSome := rfl
    rw [Part.value?_calibration, Part.members, value?_parameters_canonical]
    cases hParameters : Part.parameters.value? o with
    | none =>
      rw [Part.value?_calibration, Part.members_of_value?_eq_none hParameters]
      rfl
    | some v =>
      rw [Option.map_some, topicValue, hCalibrated]
      cases (Part.block .calibration).value? o <;> rfl

theorem value?_temperatureTable_canonical (o : Object) :
    Part.temperatureTable.value? (ofDocument o).canonical =
      (Part.parameters.value? o).map fun _ => .object (ofDocument o).tableObject := by
  rw [Part.value?_temperatureTable, Part.members, value?_parameters_canonical]
  cases Part.parameters.value? o <;> rfl

theorem isObject_of_value?_canonical {o : Object} {p : Part} {v : Value}
    (h : p.value? (ofDocument o).canonical = some v) : v.IsObject := by
  cases p with
  | block b =>
    rw [value?_block_canonical, Option.map_eq_some_iff] at h
    obtain ⟨_, -, rfl⟩ := h
    exact ⟨_, rfl⟩
  | parameters =>
    rw [value?_parameters_canonical, Option.map_eq_some_iff] at h
    obtain ⟨_, -, rfl⟩ := h
    exact ⟨_, rfl⟩
  | temperatureTable =>
    rw [value?_temperatureTable_canonical, Option.map_eq_some_iff] at h
    obtain ⟨_, -, rfl⟩ := h
    exact ⟨_, rfl⟩

/-- The canonical reply says about each field what the report knows. -/
theorem wire_canonical (o : Object) (f : Field) :
    f.wire (ofDocument o).canonical = ((ofDocument o).value f).map f.kind.toValue := by
  cases hBlock : (Part.block f.block).value? o with
  | none =>
    -- without the block the field was unknown, and the canonical reply lacks the block too
    have hUnknown : (ofDocument o).value f = none := by
      show f.decode (f.wire o) = none
      rw [Field.wire_of_value?_eq_none hBlock]
      rfl
    rw [hUnknown]
    refine Field.wire_of_value?_eq_none ?_
    rw [value?_block_canonical, hBlock]
    rfl
  | some v =>
    have hMembers : (Part.block f.block).members (ofDocument o).canonical =
        (ofDocument o).blockObject f.block := by
      rw [Part.members, value?_block_canonical, hBlock]
      rfl
    rw [Field.wire, hMembers, lookup_blockObject, Listing.fieldValue]
    cases (ofDocument o).value f with
    | none => rfl
    | some x =>
      dsimp only
      -- what a value is spelled as depends on the kind of the field, not on the field
      generalize f.kind = k at x
      cases k <;> rfl

theorem value_canonical (o : Object) (f : Field) :
    (ofDocument (ofDocument o).canonical).value f = (ofDocument o).value f := by
  show f.decode (f.wire (ofDocument o).canonical) = _
  rw [wire_canonical]
  cases (ofDocument o).value f with
  | none => rfl
  | some x =>
    rw [Option.map_some, Field.decode, Kind.accept_toValue]
    rfl

theorem diagnostics_canonical (o : Object) : diagnostics (ofDocument o).canonical = [] := by
  refine List.flatMap_eq_nil_iff.mpr fun topic _ => List.flatMap_eq_nil_iff.mpr fun p _ => ?_
  have hPart : p.diagnostic? (ofDocument o).canonical = none := by
    rw [Part.diagnostic?, Part.malformed?_eq_none_of_value? fun _ => isObject_of_value?_canonical]
    rfl
  have hField : ∀ f ∈ p.fields, f.diagnostic? (ofDocument o).canonical = none := by
    intro f _
    rw [Field.diagnostic?, wire_canonical]
    cases (ofDocument o).value f with
    | none => rfl
    | some x =>
      -- a value that was accepted once is accepted in its plain spelling
      rw [Option.map_some]
      dsimp only
      rw [Kind.accept_toValue]
  rw [Part.diagnostics, hPart, List.filterMap_eq_nil_iff.mpr hField]
  rfl

theorem calibrated_canonical (o : Object) :
    (ofDocument (ofDocument o).canonical).calibrated = (ofDocument o).calibrated := by
  show ((Part.block .calibration).value? (ofDocument o).canonical).isSome = _
  rw [value?_block_canonical, Option.isSome_map]
  rfl

theorem table_canonical (o : Object) :
    (ofDocument (ofDocument o).canonical).table = (ofDocument o).table := by
  show tableOf (ofDocument o).canonical = tableOf o
  rw [tableOf, Part.members, value?_temperatureTable_canonical]
  cases hParameters : Part.parameters.value? o with
  | none =>
    -- without parameters neither reply has a table
    have hNone : Part.temperatureTable.value? o = none := by
      rw [Part.value?_temperatureTable, Part.members_of_value?_eq_none hParameters]
      rfl
    rw [tableOf, Part.members_of_value?_eq_none hNone]
    rfl
  | some v =>
    show ((tableOf o).map fun (label, text) => (label, Value.text text)).map _ = tableOf o
    rw [List.map_map]
    exact List.map_id _

theorem action_canonical (o : Object) :
    (ofDocument (ofDocument o).canonical).action = (ofDocument o).action := by
  show actionOf (ofDocument o).canonical = actionOf o
  rw [actionOf, Topic.action?, get?_formerActionKey_canonical, get?_canonical]
  by_cases hTopic : Topic.actionRequested ∈ (ofDocument o).topics
  · rw [if_pos hTopic, topicValue]
    show _ = (ofDocument o).action
    cases (ofDocument o).action <;> rfl
  · -- neither key is there, so no action was read in the first place
    rw [if_neg hTopic]
    rw [mem_topics_ofDocument, Topic.isPresent, Bool.or_eq_true, not_or] at hTopic
    obtain ⟨hKey, hFormer⟩ := hTopic
    rw [Keyed.has, Bool.not_eq_true, Option.isSome_eq_false_iff, Option.isNone_iff_eq_none]
      at hKey hFormer
    rw [actionOf, Topic.action?, hKey, hFormer]

/-- **Reading a report is a normalisation.** What is read from the canonical reply of a report is
the report itself, though it was read from another document. The canonical reply leaves nothing to
report, so an exchange that receives it notes nothing but the topics. -/
theorem ofDocument_canonical {reply : Reply} {r : Report} (h : ofReply reply = .ok r) :
    ofDocument r.canonical = { r with raw := r.canonical } ∧
      diagnostics r.canonical = [] ∧
      ∀ (net : Network) (sockets : Nat) (context : Log.Context) (again : Reply),
        again.document = .ok r.canonical →
        let run := (Exchange.readReport again).run net sockets context
        run.result = .ok { r with raw := r.canonical } ∧
          run.events = [(Notice.decoded r.topicNames).event.within context] := by
  obtain ⟨o, -, rfl⟩ := ofReply_eq_ok_iff.mp h
  -- all that is read is the same, component by component; only the raw document differs
  have hReport : ofDocument (ofDocument o).canonical =
      { ofDocument o with raw := (ofDocument o).canonical } := by
    have hValue : (ofDocument (ofDocument o).canonical).value = (ofDocument o).value :=
      funext (value_canonical o)
    dsimp only
    rw [← topics_canonical, ← hValue, ← calibrated_canonical, ← table_canonical,
      ← action_canonical]
    rfl
  refine ⟨hReport, diagnostics_canonical o, fun net sockets context again hAgain => ?_⟩
  rw [Exchange.readReport_run, hAgain]
  dsimp only
  rw [hReport, diagnostics_canonical]
  exact ⟨rfl, rfl⟩

/-- Numbers as text, a topic that is no object, and the older key of the action; and the canonical
reply as it may be written. -/
theorem ofDocument_canonical_of_spellings :
    let reply : Reply := .text
      ("\x7b\"clock\": \x7b\"class\": 7, \"offset\": \"12\"\x7d, \"oscillator\": 5, " ++
        Text.ofString "\"Action requested\": 2\x7d")
    let again : Reply := .text
      ("\x7b\"oscillator\": \x7b\"model\": null, \"fine_ctrl\": null, \"coarse_ctrl\": null, " ++
        Text.ofString "\"lock\": null, \"temperature\": null\x7d, \"clock\": \x7b\"class\": \"7\", " ++
        Text.ofString "\"offset\": 12\x7d, \"action_requested\": \"2\"\x7d")
    let o : Object :=
      [("clock", .object [("class", .int 7), ("offset", .text "12")]), ("oscillator", .int 5),
        ("Action requested", .int 2)]
    let run := (Exchange.readReport again).run ⟨.ok [], fun _ => {}, .null⟩ 0 []
    ofReply reply = .ok (ofDocument o) ∧ again.document = .ok (ofDocument o).canonical ∧
      run.result = .ok { ofDocument o with raw := (ofDocument o).canonical } ∧
      run.events = [(Notice.decoded (ofDocument o).topicNames).event.within []] := by
  intro reply again o run
  have hReply : ofReply reply = .ok (ofDocument o) := by
    have hDocument : reply.document = .ok o := by
      subst reply o
      cbv
    exact ofReply_eq_ok_iff.mpr ⟨o, hDocument, rfl⟩
  have hAgain : again.document = .ok (ofDocument o).canonical := by
    subst again o
    cbv
  obtain ⟨-, -, hRun⟩ := ofDocument_canonical hReply
  exact ⟨hReply, hAgain, hRun _ 0 [] again hAgain⟩

end Report

end OscMonitor
