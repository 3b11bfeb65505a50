import OscMonitor.Proofs.Document.Written
import OscMonitor.Proofs.Report.Isolation

/-!
# The temperature table

The temperature table of a report has the labels that the reply gives, each once, with the text of
the last value that the reply gives it. In the listing the entries stand in the order of their
labels, one a line, so it does not matter in which order they came.

Main results:

* `Reply.Writes` — the object that a reply writes, with everything that it gives twice.
* `Reply.exists_writes_of_document` — it writes one, and is read as this object merged.
* `Report.table_kept` — what the temperature table of a report is, and how it is listed.
-/

namespace OscMonitor

/-! ## The object that a reply writes -/

namespace Reply

/-- The reply writes an object, with these members in this order, some perhaps more than once. -/
def Writes (reply : Reply) (members : Object) : Prop :=
  ∃ t, reply.content = .ok t ∧ t.Writes (.object members)

/-- A reply that is read writes one object, and is read as this object merged. -/
theorem exists_writes_of_document {reply : Reply} {o : Object} (h : reply.document = .ok o) :
    ∃ members, (∀ members', reply.Writes members' ↔ members' = members) ∧
      o = Keyed.collect [] (Value.mergedMembers members) := by
  obtain ⟨t, hContent, hObject⟩ := document_eq_ok_iff.mp h
  obtain ⟨w, hWrites, hMerged⟩ := Text.exists_writes_of_read (objectOf_eq_ok_iff.mp hObject)
  -- only an object is merged into an object
  obtain ⟨members, rfl, rfl⟩ : ∃ members, w = .object members ∧
      o = Keyed.collect [] (Value.mergedMembers members) := by
    match w with
    | .object members => exact ⟨members, rfl, Value.object.inj hMerged⟩
    | .list _ | .null | .bool _ | .int _ | .float _ | .text _ => cases hMerged
  refine ⟨members, fun members' => ⟨?_, ?_⟩, rfl⟩
  · rintro ⟨t', hContent', hWrites'⟩
    obtain rfl := Except.ok.inj (hContent.symm.trans hContent')
    exact Value.object.inj (Value.tokens_injective (hWrites'.symm.trans hWrites))
  · rintro rfl
    exact ⟨t, hContent, hWrites⟩

end Reply

/-! ## The table -/

namespace Report

/-- The table of a report is that of the entries: each label once, with the plain text of the last
value that the entries give it. -/
structure KeepsTable (r : Report) (entries : Object) : Prop where
  distinct : (Keyed.keys r.table).Nodup
  labels : ∀ label, label ∈ Keyed.keys r.table ↔ label ∈ entries.keys
  texts : ∀ label, Keyed.get? label r.table = (entries.last? label).map fun v => v.merged.plain
  unchanged : ∀ label t, entries.last? label = some (.text t) → Keyed.get? label r.table = some t

/-- The table of a report is listed under its topic: the entries in strictly increasing order of
their labels, one a line, after a heading if there are any. -/
structure ListsTable (r : Report) (sorted : List (Text × Text)) : Prop where
  increasing : sorted.Pairwise fun a b => Text.le a.1 b.1 = true ∧ a.1 ≠ b.1
  entries : ∀ label text, (label, text) ∈ sorted ↔ Keyed.get? label r.table = some text
  lines : Listing.tableLines r =
    if sorted = [] then []
    else Listing.heading "Temperature table" ::
      sorted.map fun (label, text) => "\t\t- " ++ label ++ ": " ++ text
  place : ∃ before after, r.lines =
    before ++ (Listing.title .discipliningParameters ::
      (Listing.calibrationLines r ++ Listing.tableLines r)) ++ after

/-- Where an object is written with parameters and these with a table, the table of the report is
that table. -/
theorem keepsTable_of_last? {members parameters entries : Object}
    (hParameters : members.last? Topic.discipliningParameters.key = some (.object parameters))
    (hTable : parameters.last? Part.temperatureTable.name = some (.object entries))
    (hDistinct : (Value.object (Keyed.collect [] (Value.mergedMembers members))).Distinct) :
    (ofDocument (Keyed.collect [] (Value.mergedMembers members))).KeepsTable entries := by
  generalize hObject : Keyed.collect [] (Value.mergedMembers members) = o at hDistinct ⊢
  -- the parameters are those that are written, merged, and so is the table within them
  have hParametersMembers : Part.parameters.members o =
      Keyed.collect [] (Value.mergedMembers parameters) := by
    have hGet : o.get? Topic.discipliningParameters.key =
        some (.object (Keyed.collect [] (Value.mergedMembers parameters))) := by
      rw [← hObject, Value.get?_merged, hParameters]
      rfl
    show Value.members (o.get? Topic.discipliningParameters.key) = _
    rw [hGet]
    rfl
  have hTableMembers : Part.temperatureTable.members o =
      Keyed.collect [] (Value.mergedMembers entries) := by
    have hGet : Keyed.get? Part.temperatureTable.name (Part.parameters.members o) =
        some (.object (Keyed.collect [] (Value.mergedMembers entries))) := by
      rw [hParametersMembers, Value.get?_merged, hTable]
      rfl
    rw [Part.members, Part.value?_temperatureTable,
      Object.getNonNull?_eq_some_iff.mpr ⟨hGet, by rintro ⟨⟩⟩]
    rfl
  have hTexts : ∀ label, Keyed.get? label (ofDocument o).table =
      (entries.last? label).map fun v => v.merged.plain := by
    intro label
    rw [get?_table, hTableMembers, Value.get?_merged, Option.map_map]
    rfl
  refine ⟨nodup_keys_table hDistinct, fun label => ?_, hTexts, fun label t hText => ?_⟩
  case refine_2 =>
    rw [hTexts, hText]
    rfl
  rw [← not_iff_not, ← Keyed.get?_eq_none_iff, ← Keyed.last?_eq_none_iff, hTexts,
    Option.map_eq_none_iff]

/-- A table with distinct labels is listed in their order. -/
theorem listsTable_of_nodup {r : Report} (hDistinct : (Keyed.keys r.table).Nodup)
    (hTopic : Topic.discipliningParameters ∈ r.topics) : r.ListsTable r.sortedTable where
  increasing := Keyed.increasing_sortByKey hDistinct
  entries label text := by
    rw [sortedTable, List.mem_mergeSort]
    exact Keyed.mem_iff_get?_eq_some hDistinct
  lines := by
    have hEmpty : r.table.isEmpty = true ↔ r.sortedTable = [] := by
      rw [List.isEmpty_iff, ← List.length_eq_zero_iff, ← List.length_eq_zero_iff, sortedTable,
        List.length_mergeSort]
    unfold Listing.tableLines
    by_cases hNone : r.sortedTable = []
    · rw [if_pos (hEmpty.mpr hNone), if_pos hNone]
    · rw [if_neg (mt hEmpty.mp hNone), if_neg hNone]
      rfl
  place := by
    obtain ⟨before, after, hTopics⟩ := List.append_of_mem hTopic
    refine ⟨before.flatMap (Listing.topicLines r), after.flatMap (Listing.topicLines r), ?_⟩
    rw [lines, hTopics, List.flatMap_append, List.flatMap_cons, ← List.append_assoc]
    rfl

/-- **The temperature table is kept and listed without loss.** A reply that is read writes one
object. When the object has disciplining parameters that are an object, and these a temperature
table that is one, then whatever else there is, the report has a table with exactly the labels of
this table, each with the text of its last value, and lists it in the order of the labels. Tables
with the same entries, in any order, are listed alike, and so are the reports if they differ in
nothing else. -/
theorem table_kept {reply : Reply} {o : Object} (h : reply.document = .ok o) :
    ∃ members, (∀ members', reply.Writes members' ↔ members' = members) ∧
      ∀ parameters entries : Object,
        members.last? Topic.discipliningParameters.key = some (.object parameters) →
        parameters.last? Part.temperatureTable.name = some (.object entries) →
        ∃ r, ofReply reply = .ok r ∧ r.KeepsTable entries ∧ r.ListsTable r.sortedTable ∧
          ∀ reply' r', ofReply reply' = .ok r' →
            (∀ label, Keyed.get? label r'.table = Keyed.get? label r.table) →
            Listing.tableLines r' = Listing.tableLines r ∧
              (r'.topics = r.topics → r'.value = r.value → r'.calibrated = r.calibrated →
                r'.action = r.action → r'.lines = r.lines) := by
  obtain ⟨members, hWrites, rfl⟩ := Reply.exists_writes_of_document h
  refine ⟨members, hWrites, fun parameters entries hParameters hTable => ?_⟩
  have hKeeps := keepsTable_of_last? hParameters hTable (Reply.distinct_of_document h)
  have hTopic : Topic.discipliningParameters ∈
      (ofDocument (Keyed.collect [] (Value.mergedMembers members))).topics := by
    rw [mem_topics_ofDocument]
    change (Keyed.get? _ _).isSome = true
    rw [Value.get?_merged, hParameters]
    rfl
  refine ⟨_, ofReply_eq_ok_iff.mpr ⟨_, h, rfl⟩, hKeeps, listsTable_of_nodup hKeeps.distinct hTopic,
    fun reply' r' hReport' hSame => ?_⟩
  -- another reply: no label is twice in its table either, so the same texts give the same lines
  obtain ⟨o', hDocument', rfl⟩ := ofReply_eq_ok_iff.mp hReport'
  have hDistinct' := nodup_keys_table (Reply.distinct_of_document hDocument')
  refine ⟨Listing.tableLines_congr hDistinct' hKeeps.distinct hSame, ?_⟩
  intro hTopics hValue hCalibrated hAction
  rw [lines, lines, hTopics]
  refine List.flatMap_congr fun topic _ => Listing.topicLines_congr hDistinct' hKeeps.distinct ?_
  exact ⟨by rw [hTopics], fun _ _ f _ => congrFun hValue f, fun _ => hCalibrated, fun _ => hSame,
    fun _ => hAction⟩

/-- A table in which a label stands twice, first with a number and then with a list. -/
theorem table_kept_of_twice :
    let table : Text := "\x7b\"b\": 1, \"a\": \"x\", \"b\": [null]\x7d"
    let reply : Reply := .text
      ("\x7b\"disciplining_parameters\": \x7b\"temperature_table\": " ++ table ++ "\x7d\x7d")
    let entries : Object := [("b", .int 1), ("a", .text "x"), ("b", .list [.null])]
    ∃ r, ofReply reply = .ok r ∧ r.KeepsTable entries ∧
      Keyed.get? "b" r.table = some (Text.ofString "[null]") ∧ r.ListsTable r.sortedTable := by
  intro table reply entries
  let parameters : Object := [("temperature_table", .object entries)]
  have hDocument : ∃ o, reply.document = .ok o := by
    refine ⟨[("disciplining_parameters", .object [("temperature_table", .object
      [("b", .list [.null]), ("a", .text "x")])])], ?_⟩
    subst reply table
    cbv
  have hWritten : reply.Writes [("disciplining_parameters", .object parameters)] := by
    subst reply table parameters entries
    exact ⟨_, by cbv, by cbv⟩
  obtain ⟨o, hDocument⟩ := hDocument
  obtain ⟨members, hWrites, hTable⟩ := table_kept hDocument
  obtain rfl := (hWrites _).mp hWritten
  obtain ⟨r, hReport, hKeeps, hLists, -⟩ := hTable parameters entries rfl rfl
  refine ⟨r, hReport, hKeeps, ?_, hLists⟩
  rw [hKeeps.texts]
  rfl

end Report

end OscMonitor
