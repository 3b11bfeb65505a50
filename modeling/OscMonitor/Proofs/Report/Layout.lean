import Mathlib
import OscMonitor.Proofs.Number.Digits
import OscMonitor.Proofs.Report.Reading
import OscMonitor.Report.Listing

/-!
# The layout of a listing

A report keeps apart which topics a reply has and what it says about them: a topic counts as
present when its key is there, whatever stands under the key, and what is no object says nothing.
The listing shows both. It has one heading for each topic that is present, in the order of the
schema, and under it as many items as the topic has.

To read a listing it is enough to count the tabs in front of each line. No text of the daemon can
feign a heading, because a line that shows such a text begins with tabs, or else with the words of
its topic.

* `outline` takes lines apart by their tabs; `outline_flatMap` says that it finds blocks again.
* `outline_lines` — the outline of a listing is made of the topics that are present.
* `layout_of_reply` — what is present, what is unknown, and how it is laid out.
-/

namespace OscMonitor

theorem Phase.ofStatus_eq_iff {status : Option Text} {phase : Phase} (h : phase ≠ other) :
    ofStatus status = phase ↔ status = some phase.name := by
  constructor
  · intro hPhase
    unfold ofStatus at hPhase
    split_ifs at hPhase with hTracking hLow hHigh
    · rwa [← hPhase]
    · rwa [← hPhase]
    · rwa [← hPhase]
    · exact absurd hPhase.symm h
  · rintro rfl
    cases phase with
    | other => exact absurd rfl h
    | _ => decide

namespace Listing

/-! ## Outlines -/

/-- How many tabs a line is in. -/
def tabs (line : Text) : Nat := (line.takeWhile (· = CodePoint.scalar '\t')).length

/-- The outline of some lines: the lines that are at most `depth` tabs in, each with the lines after
it that are further in. Lines before the first of them stand apart. -/
def outline (depth : Nat) : List Text → List Text × List (Text × List Text)
  | [] => ([], [])
  | line :: lines =>
    let (inner, blocks) := outline depth lines
    if depth < tabs line then (line :: inner, blocks) else ([], (line, inner) :: blocks)

section Outline

variable {depth : Nat}

theorem outline_cons_inner {line : Text} (h : depth < tabs line) (lines : List Text) :
    outline depth (line :: lines) =
      (line :: (outline depth lines).1, (outline depth lines).2) := by
  rw [outline]
  exact if_pos h

theorem outline_cons_heading {line : Text} (h : tabs line ≤ depth) (lines : List Text) :
    outline depth (line :: lines) =
      ([], (line, (outline depth lines).1) :: (outline depth lines).2) := by
  rw [outline]
  exact if_neg (Nat.not_lt.mpr h)

theorem outline_append_inner {inner : List Text} (h : ∀ line ∈ inner, depth < tabs line)
    (lines : List Text) :
    outline depth (inner ++ lines) =
      (inner ++ (outline depth lines).1, (outline depth lines).2) := by
  induction inner with
  | nil => rfl
  | cons line inner ih =>
    obtain ⟨hLine, hInner⟩ := List.forall_mem_cons.mp h
    rw [List.cons_append, outline_cons_inner hLine, ih hInner, List.cons_append]

/-- A block of lines: a heading, and under it lines that are further in. -/
def IsBlock (depth : Nat) (b : Text × List Text) : Prop :=
  tabs b.1 ≤ depth ∧ ∀ line ∈ b.2, depth < tabs line

/-- Blocks that are put one after the other are found again. -/
theorem outline_flatMap {blocks : List (Text × List Text)} (h : ∀ b ∈ blocks, IsBlock depth b) :
    outline depth (blocks.flatMap fun b => b.1 :: b.2) = ([], blocks) := by
  induction blocks with
  | nil => rfl
  | cons b blocks ih =>
    obtain ⟨⟨hHeading, hInner⟩, hBlocks⟩ := List.forall_mem_cons.mp h
    rw [List.flatMap_cons, List.cons_append, outline_cons_heading hHeading,
      outline_append_inner hInner, ih hBlocks, List.append_nil]

/-- The headings of an outline are the lines that are not further in. -/
theorem map_fst_outline (lines : List Text) :
    (outline depth lines).2.map Prod.fst = lines.filter (tabs · ≤ depth) := by
  induction lines with
  | nil => rfl
  | cons line lines ih =>
    by_cases h : depth < tabs line
    · rw [outline_cons_inner h, ih, List.filter_cons_of_neg (by simpa using h)]
    · have hLe : tabs line ≤ depth := Nat.not_lt.mp h
      rw [outline_cons_heading hLe, List.map_cons, ih, List.filter_cons_of_pos (by simpa using hLe)]

end Outline

/-! ## The lines of a report -/

theorem tabs_replicate_append (n : Nat) {rest : Text}
    (h : rest.head? ≠ some (CodePoint.scalar '\t')) :
    tabs (List.replicate n (CodePoint.scalar '\t') ++ rest) = n := by
  unfold tabs
  rw [List.takeWhile_append_of_head, List.length_replicate]
  · intro p hp
    exact decide_eq_true (List.eq_of_mem_replicate hp)
  · intro p hp
    refine decide_eq_false fun hTab => h ?_
    rw [hp, hTab]

theorem tabs_item (n : Nat) (label text : Text) : tabs (item n label text) = n := by
  unfold item
  simp only [List.append_assoc]
  exact tabs_replicate_append n (by simp [Text.ofString])

theorem tabs_fieldLine (r : Report) (n : Nat) (f : Field) : tabs (fieldLine r n f) = n :=
  tabs_item n _ _

/-- A heading within a topic is one tab in, and so is what begins with it. -/
theorem tabs_heading_append (title rest : Text) : tabs (heading title ++ rest) = 1 := by
  show tabs (List.replicate 1 (CodePoint.scalar '\t') ++ _) = 1
  exact tabs_replicate_append 1 nofun

theorem tabs_heading (title : Text) : tabs (heading title) = 1 := by
  have h := tabs_heading_append title []
  rwa [List.append_nil] at h

/-- The first line of a topic. -/
def headline (r : Report) : Topic → Text
  | .actionRequested => title .actionRequested ++ r.action.getD "unknown"
  | topic => title topic

/-- The lines of a topic after the first. -/
def items (r : Report) (topic : Topic) : List Text := (topicLines r topic).tail

theorem topicLines_eq (r : Report) (topic : Topic) :
    topicLines r topic = headline r topic :: items r topic := by
  cases topic <;> rfl

theorem tabs_headline (r : Report) (topic : Topic) : tabs (headline r topic) = 0 := by
  cases topic <;> rfl

/-- The blocks of lines within the disciplining parameters. -/
def groups (r : Report) : List (Text × List Text) :=
  (if r.calibrated then
    [(heading "Calibration parameters", Block.calibration.fields.map (fieldLine r 2))]
  else []) ++
  (if r.table.isEmpty then []
  else [(heading "Temperature table", r.sortedTable.map fun (label, text) => item 2 label text)])

theorem items_discipliningParameters (r : Report) :
    items r .discipliningParameters = (groups r).flatMap fun b => b.1 :: b.2 := by
  show calibrationLines r ++ tableLines r = _
  unfold groups calibrationLines tableLines
  rw [List.flatMap_append]
  split <;> split <;> simp

theorem tabs_of_mem_groups {r : Report} {b : Text × List Text} (h : b ∈ groups r) :
    tabs b.1 = 1 ∧ ∀ line ∈ b.2, tabs line = 2 := by
  rcases List.mem_append.mp h with h | h
  · split at h
    · obtain rfl := List.mem_singleton.mp h
      refine ⟨tabs_heading _, fun line hLine => ?_⟩
      obtain ⟨f, -, rfl⟩ := List.mem_map.mp hLine
      exact tabs_fieldLine r 2 f
    · cases h
  · split at h
    · cases h
    · obtain rfl := List.mem_singleton.mp h
      refine ⟨tabs_heading _, fun line hLine => ?_⟩
      obtain ⟨entry, -, rfl⟩ := List.mem_map.mp hLine
      exact tabs_item 2 _ _

/-- The outline of the disciplining parameters, one tab in. -/
theorem outline_items_discipliningParameters (r : Report) :
    outline 1 (items r .discipliningParameters) = ([], groups r) := by
  rw [items_discipliningParameters]
  refine outline_flatMap fun b hb => ?_
  obtain ⟨hHeading, hInner⟩ := tabs_of_mem_groups hb
  refine ⟨by omega, fun line hLine => ?_⟩
  rw [hInner line hLine]
  omega

theorem tabs_pos_of_mem_items {r : Report} {topic : Topic} {line : Text}
    (h : line ∈ items r topic) : 0 < tabs line := by
  have hFields : ∀ {fields : List Field}, line ∈ fields.map (fieldLine r 1) → 0 < tabs line := by
    intro fields hMem
    obtain ⟨f, -, rfl⟩ := List.mem_map.mp hMem
    rw [tabs_fieldLine]
    exact Nat.one_pos
  -- a line below a heading is a field, a heading within it, or what stands below that
  cases topic with
  | disciplining =>
    rcases List.mem_append.mp h with h | h
    · exact hFields h
    · -- the line on the progress begins as a heading does
      obtain ⟨label, -, rfl⟩ := Option.map_eq_some_iff.mp (Option.mem_toList.mp h)
      simp only [List.append_assoc]
      rw [tabs_heading_append]
      exact Nat.one_pos
  | oscillator | clock | gnss => exact hFields h
  | discipliningParameters =>
    rw [items_discipliningParameters] at h
    obtain ⟨b, hb, hLine⟩ := List.mem_flatMap.mp h
    obtain ⟨hHeading, hInner⟩ := tabs_of_mem_groups hb
    rcases List.mem_cons.mp hLine with rfl | hLine
    · omega
    · rw [hInner line hLine]
      omega
  | actionRequested => cases h

/-- The outline of a listing is made of the topics that are present. -/
theorem outline_lines (r : Report) :
    outline 0 r.lines = ([], r.topics.map fun topic => (headline r topic, items r topic)) := by
  have hLines : r.lines = (r.topics.map fun topic => (headline r topic, items r topic)).flatMap
      fun b => b.1 :: b.2 := by
    rw [Report.lines, List.flatMap_map]
    exact List.flatMap_congr fun topic _ => topicLines_eq r topic
  rw [hLines]
  refine outline_flatMap fun b hb => ?_
  obtain ⟨topic, -, rfl⟩ := List.mem_map.mp hb
  exact ⟨Nat.le_of_eq (tabs_headline r topic), fun _ => tabs_pos_of_mem_items⟩

theorem filter_tabs_lines (r : Report) :
    r.lines.filter (fun line => tabs line = 0) = r.topics.map (headline r) := by
  have hHeadings := @map_fst_outline 0 r.lines
  rw [outline_lines, List.map_map] at hHeadings
  simp only [Nat.le_zero_eq] at hHeadings
  exact hHeadings.symm

/-- The progress is shown when the status names one of three phases. -/
theorem isSome_progressLine? (r : Report) :
    (progressLine? r).isSome = true ↔
      ∃ phase, phase ≠ Phase.other ∧ r.value .status = some phase.name := by
  have hLabel : ∀ phase : Phase, phase.label?.isSome = true ↔ phase ≠ .other := by
    intro phase
    cases phase <;> decide
  rw [progressLine?, Option.isSome_map, hLabel]
  constructor
  · intro hPhase
    exact ⟨r.phase, hPhase, (Phase.ofStatus_eq_iff hPhase).mp rfl⟩
  · rintro ⟨phase, hPhase, hStatus⟩
    have hSame : r.phase = phase := (Phase.ofStatus_eq_iff hPhase).mpr hStatus
    rwa [hSame]

end Listing

/-! ## Parts without an object -/

/-- The members of a value that is no object. -/
theorem Value.members_eq_nil {v : Option Value} (h : ∀ m, v ≠ some (.object m)) :
    members v = [] := by
  unfold members
  split
  · next m => exact absurd rfl (h m)
  · rfl

/-- A topic without an object has no members in any of its parts. -/
theorem Topic.members_eq_nil {o : Object} {topic : Topic}
    (h : ∀ m, o.get? topic.key ≠ some (.object m)) : ∀ p ∈ topic.parts, p.members o = [] := by
  have hMembers : Value.members (o.get? topic.key) = [] := Value.members_eq_nil h
  intro p hp
  cases topic with
  | disciplining | oscillator | clock | gnss =>
    obtain rfl := List.mem_singleton.mp hp
    exact hMembers
  | discipliningParameters =>
    -- a part of the parameters is looked up among their members, of which there are none
    have hInner : ∀ key, Value.members (Part.value?.inParameters o key) = [] := by
      intro key
      rw [Part.value?.inParameters, hMembers]
      rfl
    rcases List.mem_cons.mp hp with rfl | hp
    · exact hMembers
    · rcases List.mem_cons.mp hp with rfl | hp
      · exact hInner _
      · obtain rfl := List.mem_singleton.mp hp
        exact hInner _
  | actionRequested => cases hp

/-- What is read from a value as text: nothing from null. -/
def Value.words? : Value → Option Text
  | .null => none
  | v => some v.plain

namespace Report

/-- A report tells which topics a reply has, by their keys and by nothing else, and what was
requested. -/
structure TellsTopics (r : Report) : Prop where
  -- The topics are told in the order of the schema.
  order : r.topics.Sublist Topic.all
  present : ∀ topic ≠ .actionRequested, topic ∈ r.topics ↔ r.raw.has topic.key = true
  -- The request may also be echoed under a former key.
  requested : .actionRequested ∈ r.topics ↔
    r.raw.has Topic.actionRequested.key = true ∨ r.raw.has Topic.formerActionKey = true
  -- The key of the topic decides when it is there, even with a null.
  action : ∀ v, r.raw.get? Topic.actionRequested.key = some v → r.action = v.words?
  formerAction : r.raw.get? Topic.actionRequested.key = none →
    r.action = (r.raw.get? Topic.formerActionKey).bind Value.words?

/-- A report knows nothing of a topic. -/
structure KnowsNothing (r : Report) (topic : Topic) : Prop where
  values : ∀ p ∈ topic.parts, ∀ f ∈ p.fields, r.value f = none
  calibrated : topic = .discipliningParameters → r.calibrated = false
  table : topic = .discipliningParameters → r.table = []

/-- How a listing is laid out. -/
structure LaidOut (r : Report) : Prop where
  -- The lines that do not begin with a tab are the headings of the topics that are present.
  headings : r.lines.filter (fun line => Listing.tabs line = 0) = r.topics.map (Listing.headline r)
  -- Under each of them are the items of its topic.
  outline : Listing.outline 0 r.lines =
    ([], r.topics.map fun topic => (Listing.headline r topic, Listing.items r topic))
  -- There are three items on the disciplining, and one on the progress in a phase with a name.
  disciplining : ∃ three, three.length = 3 ∧
    Listing.items r .disciplining = three ++ (Listing.progressLine? r).toList
  progress : (Listing.progressLine? r).isSome = true ↔
    ∃ phase, phase ≠ Phase.other ∧ r.value .status = some phase.name
  oscillator : (Listing.items r .oscillator).length = 5
  clock : (Listing.items r .clock).length = 2
  gnss : (Listing.items r .gnss).length = 7
  -- The disciplining parameters have two blocks of their own, one of eleven items and one with an
  -- item for each entry of the table. Either is left out when there is nothing for it.
  parameters : ∃ eleven entries, eleven.length = 11 ∧ entries.length = r.table.length ∧
    Listing.outline 1 (Listing.items r .discipliningParameters) =
      ([], (if r.calibrated then [(Listing.heading "Calibration parameters", eleven)] else []) ++
        if r.table = [] then [] else [(Listing.heading "Temperature table", entries)])
  request : Listing.items r .actionRequested = []

theorem tellsTopics (o : Object) : (ofDocument o).TellsTopics where
  order := List.filter_sublist
  present topic hTopic := by
    rw [mem_topics_ofDocument]
    cases topic with
    | actionRequested => exact absurd rfl hTopic
    | _ => exact Iff.rfl
  requested := by
    rw [mem_topics_ofDocument]
    exact Bool.or_eq_true_iff
  action v hv := by
    show actionOf o = v.words?
    have hGet : o.get? Topic.actionRequested.key = some v := hv
    have hAction : Topic.action? o = some v := by
      rw [Topic.action?, hGet]
    -- the key hides the one of former times, whatever it holds
    rw [actionOf, hAction]
    cases v <;> rfl
  formerAction hNone := by
    show actionOf o = (o.get? Topic.formerActionKey).bind Value.words?
    have hGet : o.get? Topic.actionRequested.key = none := hNone
    have hAction : Topic.action? o = o.get? Topic.formerActionKey := by
      rw [Topic.action?, hGet]
    rw [actionOf, hAction]
    cases o.get? Topic.formerActionKey with
    | none => rfl
    | some v => cases v <;> rfl

/-- A field of a part without members is unknown. -/
theorem value_eq_none {o : Object} {f : Field} (h : (Part.block f.block).members o = []) :
    (ofDocument o).value f = none := by
  have hWire : f.wire o = none := by
    rw [Field.wire, h]
    rfl
  show f.decode (f.wire o) = none
  rw [hWire]
  rfl

/-- Nothing is known of a topic that is missing or no object. -/
theorem knowsNothing {o : Object} {topic : Topic}
    (h : ∀ m, o.get? topic.key ≠ some (.object m)) : (ofDocument o).KnowsNothing topic where
  values p hp f hf := by
    have hMembers := Topic.members_eq_nil h p hp
    -- only a block has fields
    cases p with
    | block b =>
      obtain rfl := (Field.mem_fields_iff f b).mp hf
      exact value_eq_none hMembers
    | parameters => cases hf
    | temperatureTable => cases hf
  calibrated hTopic := by
    subst hTopic
    have hMembers := Topic.members_eq_nil h .parameters List.mem_cons_self
    show ((Part.block .calibration).value? o).isSome = false
    rw [Part.value?_calibration, hMembers]
    rfl
  table hTopic := by
    subst hTopic
    have hMembers := Topic.members_eq_nil h .temperatureTable (by decide)
    show tableOf o = []
    rw [tableOf, hMembers]
    rfl

/-- Nothing is known of a topic that a report does not tell. -/
theorem knowsNothing_of_not_mem {o : Object} {topic : Topic} (hTopic : topic ≠ .actionRequested)
    (h : topic ∉ (ofDocument o).topics) : (ofDocument o).KnowsNothing topic := by
  refine knowsNothing fun m hGet => h (((tellsTopics o).present topic hTopic).mpr ?_)
  show (o.get? topic.key).isSome = true
  rw [hGet]
  rfl

theorem action_of_not_mem {o : Object} (h : Topic.actionRequested ∉ (ofDocument o).topics) :
    (ofDocument o).action = none := by
  have hTells := tellsTopics o
  obtain ⟨hNew, hFormer⟩ := not_or.mp (mt hTells.requested.mpr h)
  have hNone := Option.not_isSome_iff_eq_none.mp hNew
  have hNone' : (ofDocument o).raw.get? Topic.formerActionKey = none :=
    Option.not_isSome_iff_eq_none.mp hFormer
  rw [hTells.formerAction hNone, hNone']
  rfl

theorem laidOut (r : Report) : r.LaidOut where
  headings := Listing.filter_tabs_lines r
  outline := Listing.outline_lines r
  disciplining := ⟨_, List.length_map .., rfl⟩
  progress := Listing.isSome_progressLine? r
  oscillator := rfl
  clock := rfl
  gnss := rfl
  parameters := by
    refine ⟨Block.calibration.fields.map (Listing.fieldLine r 2),
      r.sortedTable.map fun (label, text) => Listing.item 2 label text, rfl, ?_, ?_⟩
    · rw [List.length_map, sortedTable, List.length_mergeSort]
    · rw [Listing.outline_items_discipliningParameters, Listing.groups]
      simp only [List.isEmpty_iff]
  request := rfl

/-- **Presence and layout.** A report that was read tells the topics by the keys of the reply; of a
topic that is missing, or that is no object, it knows nothing, though a topic of the latter sort is
present. The listing has a heading for each topic that is present, in the order of the schema, and
under each the items of the topic. The keys are those of the object that the reply is read as. -/
theorem layout_of_reply {reply : Reply} {r : Report} (h : ofReply reply = .ok r) :
    reply.document = .ok r.raw ∧ r.TellsTopics ∧
      (∀ topic, (∀ m, r.raw.get? topic.key ≠ some (.object m)) → r.KnowsNothing topic) ∧
      r.LaidOut := by
  obtain ⟨o, hDocument, rfl⟩ := ofReply_eq_ok_iff.mp h
  exact ⟨hDocument, tellsTopics o, fun _ => knowsNothing, laidOut _⟩

/-- A clock that is null, a request under both keys, and a table with a label like a heading. -/
theorem layout_of_reply_of_null :
    let reply : Reply := .text
      ("\x7b\"clock\": null, \"disciplining\": \x7b\"status\": \"TRACKING\"\x7d, " ++
        Text.ofString "\"Action requested\": \"x\", \"action_requested\": null, " ++
        Text.ofString "\"disciplining_parameters\": " ++
        Text.ofString "\x7b\"temperature_table\": \x7b\"GNSS detected\": 1\x7d\x7d\x7d")
    ∃ r, ofReply reply = .ok r ∧ r.action = none ∧
      (∀ f ∈ Block.clock.fields, r.value f = none) ∧
      r.lines.filter (fun line => Listing.tabs line = 0) =
        ["Disciplining detected", "Clock detected", "Disciplining parameters detected",
          "Action requested: unknown"] := by
  intro reply
  let o : Object :=
    [("clock", .null), ("disciplining", .object [("status", .text "TRACKING")]),
      ("Action requested", .text "x"), ("action_requested", .null),
      ("disciplining_parameters",
        .object [("temperature_table", .object [("GNSS detected", .int 1)])])]
  have hDocument : reply.document = .ok o := by
    subst reply o
    cbv
  have hReport : ofReply reply = .ok (ofDocument o) :=
    ofReply_eq_ok_iff.mpr ⟨o, hDocument, rfl⟩
  have hTopics : (ofDocument o).topics =
      [.disciplining, .clock, .discipliningParameters, .actionRequested] := by
    subst o
    decide
  obtain ⟨-, hTells, hUnknown, hLaid⟩ := layout_of_reply hReport
  have hHeadings := hLaid.headings
  rw [hTopics] at hHeadings
  refine ⟨ofDocument o, hReport, hTells.action .null rfl, ?_, hHeadings⟩
  -- what stands under the key of the clock is null
  have hClock : ∀ m, (ofDocument o).raw.get? Topic.clock.key ≠ some (.object m) := by
    intro m hObject
    have hNull : some Value.null = some (.object m) := hObject
    cases hNull
  exact (hUnknown .clock hClock).values (.block .clock) List.mem_cons_self

end Report

end OscMonitor
