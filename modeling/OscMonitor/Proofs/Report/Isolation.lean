import Mathlib
import OscMonitor.Proofs.Reply.Document
import OscMonitor.Proofs.Report.Logged
import OscMonitor.Proofs.Text.Order
import OscMonitor.Report.Listing

/-!
# Isolation of topics

What a report says about a topic depends on what the reply says about the topic and on nothing
else: not on the other topics, not on unknown members, and not on the order of anything. Two
replies that agree on a topic, as look-ups tell, are decoded, logged and listed alike there.

The look-ups do not tell all that is logged: of a value that should be an object and is none, the
log shows the sort. So for what is logged, and for that alone, such values have to be of the same
sort.

* `Topic.Agrees`, `Topic.SameSorts` — agreement by look-ups, and what the log needs beside it.
* `Report.value_congr` — a field depends on the look-up of its own keys.
* `Topic.Agrees.logged_diagnostics` — what is logged of a topic depends on the topic.
* `topicLines_congr` — what is listed of a topic depends on what the report says about it.
* `isolated_of_agrees` — replies that agree on a topic are decoded, logged and listed alike there.
-/

namespace OscMonitor

/-! ## Agreement -/

/-- Two replies agree on a topic: on whether it is there, on the fields of its parts, by look-up,
and on what is read from it besides fields. In a part that is no object nothing is looked up. The
order of members and members that are not read do not count. -/
structure Topic.Agrees (topic : Topic) (o o' : Object) : Prop where
  present : topic.isPresent o = topic.isPresent o'
  fields : ∀ p ∈ topic.parts, ∀ f ∈ p.fields,
    f.lookup (p.members o) = f.lookup (p.members o')
  calibrated : topic = .discipliningParameters →
    ((Part.block .calibration).value? o).isSome = ((Part.block .calibration).value? o').isSome
  table : topic = .discipliningParameters →
    ∀ label, (Part.temperatureTable.members o).get? label =
      (Part.temperatureTable.members o').get? label
  action : topic = .actionRequested → Topic.action? o = Topic.action? o'

/-- Parts of a topic that should be objects and are none are of the same sort in two replies. -/
def Topic.SameSorts (topic : Topic) (o o' : Object) : Prop :=
  ∀ p ∈ topic.parts, (p.malformed? o).map Value.sortName = (p.malformed? o').map Value.sortName

/-- Two reports say the same about a topic. -/
structure Report.AgreesOn (r r' : Report) (topic : Topic) : Prop where
  present : topic ∈ r.topics ↔ topic ∈ r'.topics
  values : ∀ p ∈ topic.parts, ∀ f ∈ p.fields, r.value f = r'.value f
  calibrated : topic = .discipliningParameters → r.calibrated = r'.calibrated
  table : topic = .discipliningParameters →
    ∀ label, Keyed.get? label r.table = Keyed.get? label r'.table
  action : topic = .actionRequested → r.action = r'.action

/-- The lines of a topic in the listing of a report: none when it is not there. -/
def Report.block (r : Report) (topic : Topic) : List Text :=
  if topic ∈ r.topics then Listing.topicLines r topic else []

/-! ## Fields -/

section Fields

variable {f : Field} {o o' : Object}

theorem Field.wire_congr (h : f.lookup ((Part.block f.block).members o) =
    f.lookup ((Part.block f.block).members o')) : f.wire o = f.wire o' := by
  rw [wire, h]
  rfl

/-- A field depends on the look-up of its own keys and on nothing else. -/
theorem Report.value_congr (h : f.lookup ((Part.block f.block).members o) =
    f.lookup ((Part.block f.block).members o')) :
    (ofDocument o).value f = (ofDocument o').value f := by
  show f.decode (f.wire o) = f.decode (f.wire o')
  rw [Field.wire_congr h]

theorem Field.diagnostic?_congr (h : f.lookup ((Part.block f.block).members o) =
    f.lookup ((Part.block f.block).members o')) : f.diagnostic? o = f.diagnostic? o' := by
  rw [diagnostic?, diagnostic?, wire_congr h]

end Fields

/-! ## Diagnostics -/

namespace Part

variable {p : Part} {o o' : Object}

/-- The fields of a part are read from its members. -/
theorem lookup_of_mem_fields {f : Field} (hf : f ∈ p.fields)
    (h : f.lookup (p.members o) = f.lookup (p.members o')) :
    f.lookup ((block f.block).members o) = f.lookup ((block f.block).members o') := by
  cases p with
  | block b =>
    obtain rfl := (Field.mem_fields_iff f b).mp hf
    exact h
  | parameters => cases hf
  | temperatureTable => cases hf

/-- What is logged of a part depends on the part: of a value that is no object, only the sort is
logged. -/
theorem logged_diagnostics_congr
    (hFields : ∀ f ∈ p.fields, f.lookup (p.members o) = f.lookup (p.members o'))
    (hSort : (p.malformed? o).map Value.sortName = (p.malformed? o').map Value.sortName)
    (context : Log.Context) :
    (p.diagnostics o).map (Diagnostic.logged context) =
      (p.diagnostics o').map (Diagnostic.logged context) := by
  have hPart : ((p.diagnostic? o).toList).map (Diagnostic.logged context) =
      ((p.diagnostic? o').toList).map (Diagnostic.logged context) := by
    rw [diagnostic?, diagnostic?]
    cases hValue : p.malformed? o with
    | none =>
      rw [hValue, Option.map_none, eq_comm, Option.map_eq_none_iff] at hSort
      rw [hSort]
    | some v =>
      -- the two values may differ, but their sort is all that the event shows of them
      rw [hValue, Option.map_some, eq_comm, Option.map_eq_some_iff] at hSort
      obtain ⟨v', hValue', hSame⟩ := hSort
      rw [hValue']
      simp only [Option.map_some, Option.toList_some, List.map_cons, List.map_nil,
        Diagnostic.logged, Notice.event, Notice.diagnosticEvent, hSame]
  have hRefused : p.fields.filterMap (·.diagnostic? o) = p.fields.filterMap (·.diagnostic? o') :=
    List.filterMap_congr fun f hf =>
      Field.diagnostic?_congr (lookup_of_mem_fields hf (hFields f hf))
  rw [diagnostics, diagnostics, List.map_append, List.map_append, hPart, hRefused]

end Part

theorem Topic.Agrees.logged_diagnostics {topic : Topic} {o o' : Object} (h : topic.Agrees o o')
    (hSorts : topic.SameSorts o o') (context : Log.Context) :
    (topic.diagnostics o).map (Diagnostic.logged context) =
      (topic.diagnostics o').map (Diagnostic.logged context) := by
  rw [diagnostics, diagnostics, List.map_flatMap, List.map_flatMap]
  exact List.flatMap_congr fun p hp =>
    Part.logged_diagnostics_congr (h.fields p hp) (hSorts p hp) context

/-! ## Listings -/

namespace Listing

variable {r r' : Report}

theorem fieldText_congr {f : Field} (h : r.value f = r'.value f) :
    fieldText r f = fieldText r' f := by
  simp only [fieldText, fieldValue, h]

theorem fieldLines_congr {depth : Nat} {fields : List Field}
    (h : ∀ f ∈ fields, r.value f = r'.value f) :
    fields.map (fieldLine r depth) = fields.map (fieldLine r' depth) := by
  refine List.map_congr_left fun f hf => ?_
  rw [fieldLine, fieldLine, fieldText_congr (h f hf)]

theorem progressLine?_congr
    (h : ∀ f ∈ Block.disciplining.fields, r.value f = r'.value f) :
    progressLine? r = progressLine? r' := by
  have hPhase : r.phase = r'.phase := by
    rw [Report.phase, Report.phase, h .status (by decide)]
  have hProgress : fieldValue r .convergenceProgress = fieldValue r' .convergenceProgress := by
    rw [fieldValue, fieldValue, h .convergenceProgress (by decide)]
  rw [progressLine?, progressLine?, hPhase, hProgress, fieldText_congr (h .phaseCount (by decide)),
    fieldText_congr (h .phaseThreshold (by decide))]

/-- Equal look-ups give equal tables in a listing, as the labels are sorted. -/
theorem tableLines_congr (hDistinct : (Keyed.keys r.table).Nodup)
    (hDistinct' : (Keyed.keys r'.table).Nodup)
    (h : ∀ label, Keyed.get? label r.table = Keyed.get? label r'.table) :
    tableLines r = tableLines r' := by
  have hSorted : r.sortedTable = r'.sortedTable :=
    Keyed.sortByKey_eq_of_get?_eq hDistinct hDistinct' h
  have hEmpty : r.table.isEmpty = r'.table.isEmpty :=
    (Keyed.perm_of_get?_eq hDistinct hDistinct' h).isEmpty_eq
  rw [tableLines, tableLines, hSorted, hEmpty]

/-- What is listed of a topic depends on what the report says about it. -/
theorem topicLines_congr {topic : Topic} (hDistinct : (Keyed.keys r.table).Nodup)
    (hDistinct' : (Keyed.keys r'.table).Nodup) (h : r.AgreesOn r' topic) :
    topicLines r topic = topicLines r' topic := by
  have hBlock : ∀ b, .block b ∈ topic.parts → ∀ f ∈ b.fields, r.value f = r'.value f :=
    fun b => h.values (.block b)
  cases topic with
  | disciplining =>
    -- the line on the progress is made of fields that are not listed on their own
    have hValues := hBlock .disciplining (by decide)
    have hListed : ∀ f ∈ discipliningFields, r.value f = r'.value f := by
      intro f hf
      have hMem : ∀ g ∈ discipliningFields, g ∈ Block.disciplining.fields := by decide
      exact hValues f (hMem f hf)
    rw [topicLines, topicLines, fieldLines_congr hListed, progressLine?_congr hValues]
  | oscillator =>
    rw [topicLines, topicLines, fieldLines_congr (hBlock .oscillator (by decide))]
  | clock => rw [topicLines, topicLines, fieldLines_congr (hBlock .clock (by decide))]
  | gnss => rw [topicLines, topicLines, fieldLines_congr (hBlock .gnss (by decide))]
  | discipliningParameters =>
    have hCalibration := hBlock .calibration (by decide)
    rw [topicLines, topicLines, tableLines_congr hDistinct hDistinct' (h.table rfl),
      calibrationLines, calibrationLines, h.calibrated rfl, fieldLines_congr hCalibration]
  | actionRequested => rw [topicLines, topicLines, h.action rfl]

end Listing

/-! ## Reports -/

namespace Report

/-- The listing of a report is made of the lines of its topics. -/
theorem lines_ofDocument (o : Object) :
    (ofDocument o).lines = Topic.all.flatMap (ofDocument o).block := by
  have hBlock : ∀ topic, (ofDocument o).block topic =
      if topic.isPresent o then Listing.topicLines (ofDocument o) topic else [] := by
    intro topic
    simp only [block, mem_topics_ofDocument]
  rw [lines, funext hBlock]
  -- a topic that is missing has no lines, so it does not matter that it is filtered out first
  show (Topic.all.filter fun topic => topic.isPresent o).flatMap _ = _
  generalize Topic.all = topics, Listing.topicLines (ofDocument o) = topicLines
  induction topics with
  | nil => rfl
  | cons topic topics ih =>
    rw [List.filter_cons, List.flatMap_cons, ← ih]
    split <;> rfl

/-- The temperature table of a reply that was read has distinct labels. -/
theorem nodup_keys_table {o : Object} (h : (Value.object o).Distinct) :
    (Keyed.keys (ofDocument o).table).Nodup := by
  -- a value that is no object counts as one without members
  have hMembers : ∀ v : Option Value, (∀ w, v = some w → w.Distinct) →
      (Value.object (Value.members v)).Distinct := by
    intro v hv
    cases v with
    | none => exact Value.distinct_object_nil
    | some w =>
      cases w with
      | object m => exact hv _ rfl
      | _ => exact Value.distinct_object_nil
  have hParameters : (Value.object (Part.parameters.members o)).Distinct :=
    hMembers _ fun _ hGet => h.of_get? hGet
  have hTable : (Value.object (Part.temperatureTable.members o)).Distinct := by
    refine hMembers _ fun w hw => ?_
    rw [Part.value?_temperatureTable, Object.getNonNull?_eq_some_iff] at hw
    exact hParameters.of_get? hw.1
  show (Keyed.keys (tableOf o)).Nodup
  rw [tableOf, Keyed.keys_map_value]
  exact (Value.distinct_object_iff.mp hTable).1

/-- Replies that agree on a topic are decoded alike there. -/
theorem agreesOn_of_agrees {o o' : Object} {topic : Topic} (h : topic.Agrees o o') :
    (ofDocument o).AgreesOn (ofDocument o') topic where
  present := by
    rw [mem_topics_ofDocument, mem_topics_ofDocument, h.present]
  values p hp f hf := value_congr (Part.lookup_of_mem_fields hf (h.fields p hp f hf))
  calibrated := h.calibrated
  table hTopic label := by rw [get?_table, get?_table, h.table hTopic]
  action hTopic := by
    show actionOf o = actionOf o'
    rw [actionOf, actionOf, h.action hTopic]

/-- **Topics are isolated.** Two replies that agree on a topic, as look-ups tell, are decoded alike
there, whatever else they say and in whatever order, and its lines in the listing are the same. So
is what is logged of the topic, event by event, when moreover what is no object where one should be
is of the same sort in both. Within a topic, a field depends on the look-up of its own keys alone.

The replies are any two that can be read, so each of them may have what it likes in other topics. -/
theorem isolated_of_agrees {reply reply' : Reply} {o o' : Object} (h : reply.document = .ok o)
    (h' : reply'.document = .ok o') :
    (ofDocument o).lines = Topic.all.flatMap (ofDocument o).block ∧
    (∀ topic : Topic, topic.Agrees o o' →
      (ofDocument o).AgreesOn (ofDocument o') topic ∧
        (ofDocument o).block topic = (ofDocument o').block topic ∧
        (topic.SameSorts o o' → ∀ (net : Network) (sockets : Nat) (context : Log.Context),
          ((Exchange.readReport reply).run net sockets context).events.filter topic.reports =
            ((Exchange.readReport reply').run net sockets context).events.filter topic.reports)) ∧
    ∀ f : Field,
      f.lookup ((Part.block f.block).members o) = f.lookup ((Part.block f.block).members o') →
      (ofDocument o).value f = (ofDocument o').value f := by
  refine ⟨lines_ofDocument o, fun topic hAgrees => ?_, fun f => value_congr⟩
  have hSame := agreesOn_of_agrees hAgrees
  refine ⟨hSame, ?_, fun hSorts net sockets context => ?_⟩
  · -- the labels of both tables are distinct, as both replies were read
    have hDistinct := nodup_keys_table (Reply.distinct_of_document h)
    have hDistinct' := nodup_keys_table (Reply.distinct_of_document h')
    rw [block, block, Listing.topicLines_congr hDistinct hDistinct' hSame]
    simp only [hSame.present]
  · rw [filter_reports net sockets context h, filter_reports net sockets context h',
      hAgrees.logged_diagnostics hSorts]

/-- A clock in two orders and with an unknown member, once beside a receiver that is no object. -/
theorem isolated_of_agrees_of_orders :
    let reply : Reply := .text
      "\x7b\"clock\": \x7b\"class\": \"A\", \"offset\": \"x\"\x7d, \"gnss\": 5\x7d"
    let reply' : Reply := .text
      "\x7b\"spare\": 0, \"clock\": \x7b\"offset\": \"x\", \"spare\": [], \"class\": \"A\"\x7d\x7d"
    let o : Object :=
      [("clock", .object [("class", .text "A"), ("offset", .text "x")]), ("gnss", .int 5)]
    let o' : Object :=
      [("spare", .int 0), ("clock", .object
        [("offset", .text "x"), ("spare", .list []), ("class", .text "A")])]
    reply.document = .ok o ∧ reply'.document = .ok o' ∧ Topic.clock.Agrees o o' ∧
      Topic.clock.SameSorts o o' ∧
      (ofDocument o).block .clock = (ofDocument o').block .clock ∧
      ∀ (net : Network) (sockets : Nat) (context : Log.Context),
        ((Exchange.readReport reply).run net sockets context).events.filter Topic.clock.reports =
          ((Exchange.readReport reply').run net sockets context).events.filter
            Topic.clock.reports := by
  intro reply reply' o o'
  have hDocument : reply.document = .ok o := by
    subst reply o
    cbv
  have hDocument' : reply'.document = .ok o' := by
    subst reply' o'
    cbv
  -- the clock is the one part of its topic, and has two members in both replies
  have hAgrees : Topic.clock.Agrees o o' := by
    refine ⟨rfl, fun p hp => ?_, fun h => absurd h (by decide), fun h => absurd h (by decide),
      fun h => absurd h (by decide)⟩
    obtain rfl := List.mem_singleton.mp hp
    exact List.forall_mem_cons.mpr ⟨rfl, List.forall_mem_singleton.mpr rfl⟩
  have hSorts : Topic.clock.SameSorts o o' := List.forall_mem_singleton.mpr rfl
  obtain ⟨-, hTopics, -⟩ := isolated_of_agrees hDocument hDocument'
  obtain ⟨-, hBlock, hEvents⟩ := hTopics .clock hAgrees
  exact ⟨hDocument, hDocument', hAgrees, hSorts, hBlock, hEvents hSorts⟩

/-- Without the agreement on the sort, what is logged differs: a clock that is a number and one
that is a text are both no object, so that there are no look-ups to differ. -/
theorem logged_ne_of_sorts :
    let reply : Reply := .text "\x7b\"clock\": 5\x7d"
    let reply' : Reply := .text "\x7b\"clock\": \"x\"\x7d"
    let o : Object := [("clock", .int 5)]
    let o' : Object := [("clock", .text "x")]
    let net : Network := ⟨.ok [], fun _ => {}, .null⟩
    reply.document = .ok o ∧ reply'.document = .ok o' ∧
      Topic.clock.isPresent o = Topic.clock.isPresent o' ∧
      (∀ m, o.get? Topic.clock.key ≠ some (.object m)) ∧
      (∀ m, o'.get? Topic.clock.key ≠ some (.object m)) ∧
      (∀ f ∈ Block.clock.fields, f.lookup ((Part.block .clock).members o) =
        f.lookup ((Part.block .clock).members o')) ∧
      ((Exchange.readReport reply).run net 0 []).events.filter Topic.clock.reports ≠
        ((Exchange.readReport reply').run net 0 []).events.filter Topic.clock.reports := by
  intro reply reply' o o' net
  have hDocument : reply.document = .ok o := by
    subst reply o
    cbv
  have hDocument' : reply'.document = .ok o' := by
    subst reply' o'
    cbv
  -- neither value is an object
  have hInt : ∀ m, some (Value.int 5) ≠ some (.object m) := by
    rintro m ⟨⟩
  have hText : ∀ m, some (Value.text "x") ≠ some (.object m) := by
    rintro m ⟨⟩
  refine ⟨hDocument, hDocument', rfl, hInt, hText, fun f _ => rfl, fun hEvents => ?_⟩
  rw [filter_reports net 0 [] hDocument, filter_reports net 0 [] hDocument'] at hEvents
  have hTypes := congrArg (List.map fun e => e.text? "type") hEvents
  exact absurd hTypes (by decide)

end Report

end OscMonitor
