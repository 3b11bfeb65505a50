import Mathlib
import OscMonitor.Proofs.Report.Logged

/-!
# Nothing is dropped silently

Reading a report is lenient, so the log has to tell what was left out. It does so exactly: there is
one event for each field of which the reply says something that the report does not take over, and
one for each part that is there but is no object. They come in the order of the schema, and nothing
else is reported.

* `Field.isSome_diagnostic?` — a field is reported exactly when its value is dropped.
* `filter_invalid`, `filter_malformed` — the two kinds of diagnostics, in order.
* `Field.eq_of_names_eq` — the names in an event tell the field.
* `logged_exactly` — the log has one event for each dropped value and each malformed part.
-/

namespace OscMonitor

/-- The parts of a reply, in the order in which they are decoded. -/
def Part.all : List Part := Topic.all.flatMap Topic.parts

/-- Whether a reply has a value for a part that is no object. -/
def Part.isMalformed (o : Object) (p : Part) : Bool :=
  match p.value? o with
  | none | some (.object _) => false
  | some _ => true

/-- Whether a reply says something about a field, other than null, that the report leaves out. -/
def Field.isDropped (o : Object) (f : Field) : Bool :=
  match f.lookup ((Part.block f.block).members o) with
  | none | some .null => false
  | some _ => ((Report.ofDocument o).value f).isNone

/-- Whether a diagnostic is about a field. -/
def Diagnostic.isInvalid : Diagnostic → Bool
  | malformed .. => false
  | invalid .. => true

/-! ## Names -/

theorem Block.nodup_names (b : Block) : (b.fields.map Field.name).Nodup := by
  cases b <;> decide +kernel

theorem Block.eq_of_name_eq {b c : Block} (h : b.name = c.name) : b = c := by
  revert h
  cases b <;> cases c <;> decide +kernel

/-- The names in an event tell the field that it is about. -/
theorem Field.eq_of_names_eq {f g : Field} (hBlock : f.block.name = g.block.name)
    (hName : f.name = g.name) : f = g := by
  have hSame := Block.eq_of_name_eq hBlock
  have hf : f ∈ f.block.fields := (mem_fields_iff f _).mpr rfl
  have hg : g ∈ f.block.fields := (mem_fields_iff g _).mpr hSame.symm
  exact List.inj_on_of_nodup_map f.block.nodup_names hf hg hName

/-! ## Diagnostics -/

theorem Field.isDropped_eq (o : Object) (f : Field) :
    f.isDropped o = ((f.wire o).isSome && ((Report.ofDocument o).value f).isNone) := by
  unfold isDropped wire
  cases f.lookup ((Part.block f.block).members o) with
  | none => rfl
  | some v => cases v <;> rfl

theorem Field.isDropped_eq_true_iff {o : Object} {f : Field} :
    f.isDropped o = true ↔
      (∃ v, f.lookup ((Part.block f.block).members o) = some v ∧ v ≠ .null) ∧
        (Report.ofDocument o).value f = none := by
  rw [isDropped_eq, Bool.and_eq_true, Option.isNone_iff_eq_none, Option.isSome_iff_exists]
  simp only [wire_eq_some_iff]

/-- A field is reported exactly when its value is dropped. -/
theorem Field.isSome_diagnostic? (o : Object) (f : Field) :
    (f.diagnostic? o).isSome = f.isDropped o := by
  rw [isDropped_eq]
  show _ = ((f.wire o).isSome && (f.decode (f.wire o)).isNone)
  unfold diagnostic? decode
  cases f.wire o with
  | none => rfl
  | some v =>
    dsimp only
    cases f.kind.accept v <;> rfl

theorem Part.isSome_diagnostic? (o : Object) (p : Part) :
    (p.diagnostic? o).isSome = p.isMalformed o := by
  rw [diagnostic?, Option.isSome_map, isMalformed, malformed?]
  cases p.value? o with
  | none => rfl
  | some v => cases v <;> rfl

namespace Diagnostic

variable (context : Log.Context) (d : Diagnostic)

theorem name_logged_invalid :
    (d.logged context).isNamed "decoder.field_invalid" = d.isInvalid := by
  cases d <;> rfl

theorem name_logged_malformed :
    (d.logged context).isNamed "decoder.section_malformed" = !d.isInvalid := by
  cases d <;> rfl

/-- How an event names what it is about. -/
def names (e : Log.Event) : Option Text × Option Text := (e.text? "section", e.text? "field")

end Diagnostic

/-- When what is found for some items is shown as the items are, all that is found is shown as these
items are, in order. -/
theorem map_filterMap_eq {α β γ : Type} {found : α → Option β} {shown : β → γ} {p : α → Bool}
    {item : α → γ} {l : List α}
    (h : ∀ a ∈ l, (found a).map shown = if p a then some (item a) else none) :
    (l.filterMap found).map shown = (l.filter p).map item := by
  rw [List.map_filterMap, ← List.filterMap_eq_map', List.filterMap_filter]
  exact List.filterMap_congr h

section Diagnostics

variable (o : Object) (context : Log.Context)

theorem Field.map_names_diagnostic? (f : Field) :
    (f.diagnostic? o).map (fun d => Diagnostic.names (d.logged context)) =
      if f.isDropped o then some (some f.block.name, some f.name) else none := by
  rw [← isSome_diagnostic?]
  cases hDiagnostic : f.diagnostic? o with
  | none => rfl
  | some d =>
    obtain ⟨v, reason, -, -, rfl⟩ := diagnostic?_eq_some_iff.mp hDiagnostic
    rw [Option.map_some, Diagnostic.names, Diagnostic.section_logged, Diagnostic.field_logged]
    rfl

theorem Part.map_section_diagnostic? (p : Part) :
    (p.diagnostic? o).map (fun d => (d.logged context).text? "section") =
      if p.isMalformed o then some (some p.name) else none := by
  rw [← isSome_diagnostic?, diagnostic?]
  cases p.malformed? o with
  | none => rfl
  | some v =>
    rw [Option.map_some, Option.map_some, Diagnostic.section_logged]
    rfl

theorem Part.isInvalid_of_mem {p : Part} {d : Diagnostic} (h : d ∈ (p.diagnostic? o).toList) :
    d.isInvalid = false := by
  obtain ⟨v, -, rfl⟩ := Option.map_eq_some_iff.mp (Option.mem_toList.mp h)
  rfl

theorem Field.isInvalid_of_mem {fields : List Field} {d : Diagnostic}
    (h : d ∈ fields.filterMap (·.diagnostic? o)) : d.isInvalid = true := by
  obtain ⟨f, -, hDiagnostic⟩ := List.mem_filterMap.mp h
  obtain ⟨v, reason, -, -, rfl⟩ := diagnostic?_eq_some_iff.mp hDiagnostic
  rfl

namespace Report

theorem diagnostics_eq : diagnostics o = Part.all.flatMap (·.diagnostics o) := by
  rw [Part.all, List.flatMap_assoc]
  rfl

/-- The diagnostics of fields come part by part and field by field. -/
theorem filter_invalid :
    (diagnostics o).filter Diagnostic.isInvalid =
      (Part.all.flatMap Part.fields).filterMap (·.diagnostic? o) := by
  -- a part has at most one diagnostic of its own, and it comes before those of the fields
  have hPart : ∀ p : Part, (p.diagnostics o).filter Diagnostic.isInvalid =
      p.fields.filterMap (·.diagnostic? o) := by
    intro p
    have hNone : ((p.diagnostic? o).toList).filter Diagnostic.isInvalid = [] :=
      List.filter_eq_nil_iff.mpr fun d hd => by simp [Part.isInvalid_of_mem o hd]
    have hAll : (p.fields.filterMap (·.diagnostic? o)).filter Diagnostic.isInvalid =
        p.fields.filterMap (·.diagnostic? o) :=
      List.filter_eq_self.mpr fun d hd => Field.isInvalid_of_mem o hd
    rw [Part.diagnostics, List.filter_append, hNone, hAll, List.nil_append]
  rw [diagnostics_eq, List.filter_flatMap, funext hPart, List.filterMap_flatMap]

/-- The diagnostics of malformed parts come part by part. -/
theorem filter_malformed :
    (diagnostics o).filter (fun d => !d.isInvalid) = Part.all.filterMap (·.diagnostic? o) := by
  have hPart : ∀ p : Part, (p.diagnostics o).filter (fun d => !d.isInvalid) =
      (p.diagnostic? o).toList := by
    intro p
    have hAll : ((p.diagnostic? o).toList).filter (fun d => !d.isInvalid) =
        (p.diagnostic? o).toList :=
      List.filter_eq_self.mpr fun d hd => by simp [Part.isInvalid_of_mem o hd]
    have hNone : (p.fields.filterMap (·.diagnostic? o)).filter (fun d => !d.isInvalid) = [] :=
      List.filter_eq_nil_iff.mpr fun d hd => by simp [Field.isInvalid_of_mem o hd]
    rw [Part.diagnostics, List.filter_append, hNone, hAll, List.append_nil]
  rw [diagnostics_eq, List.filter_flatMap, funext hPart, List.filterMap_eq_flatMap_toList]

end Report

end Diagnostics

/-! ## The log -/

theorem Log.Event.reaches_debug (e : Event) : e.reaches Level.debug.number = true := by
  unfold reaches
  cases e.level <;> rfl

namespace Report

variable (net : Network) (sockets : Nat) (context : Log.Context)

/-- At the threshold for debugging, all that is logged of a reply is written. -/
theorem events_above_debug {reply : Reply} {o : Object} (h : reply.document = .ok o) :
    (((Exchange.readReport reply).run net sockets context).above Log.Level.debug.number).events =
      (diagnostics o).map (Diagnostic.logged context) ++
        [(Notice.decoded (ofDocument o).topicNames).event.within context] := by
  rw [← events_readReport net sockets context h]
  exact List.filter_eq_self.mpr fun e _ => e.reaches_debug

/-- Diagnostics that have a name of their own are found in the log by that name. -/
theorem filter_isNamed {reply : Reply} {o : Object} (h : reply.document = .ok o) {name : Text}
    {p : Diagnostic → Bool} (hName : ∀ d : Diagnostic, (d.logged context).isNamed name = p d)
    (hNe : "decoder.decoded" ≠ name) :
    (((Exchange.readReport reply).run net sockets context).above
        Log.Level.debug.number).events.filter (·.isNamed name) =
      ((diagnostics o).filter p).map (Diagnostic.logged context) := by
  have hDiagnostics : (fun e : Log.Event => e.isNamed name) ∘ Diagnostic.logged context = p :=
    funext hName
  -- the last event tells the topics, under a name that no diagnostic has
  have hDecoded : [(Notice.decoded (ofDocument o).topicNames).event.within context].filter
      (·.isNamed name) = [] := by
    refine List.filter_eq_nil_iff.mpr fun e he hSame => ?_
    rw [List.mem_singleton.mp he] at hSame
    exact hNe (beq_iff_eq.mp hSame)
  rw [events_above_debug net sockets context h, List.filter_append, hDecoded, List.append_nil,
    List.filter_map, hDiagnostics]

/-- **Nothing is dropped silently, and nothing else is reported.** At the threshold for debugging,
the log of a reply that is read has one event for each field, in the order of the schema, of which
the reply says something other than null that the report leaves out, and one for each part that is
there and is no object. A field that is missing, null or taken over is not reported. -/
theorem logged_exactly {reply : Reply} {o : Object} (h : reply.document = .ok o) :
    let events :=
      (((Exchange.readReport reply).run net sockets context).above Log.Level.debug.number).events
    (events.filter (·.isNamed "decoder.field_invalid")).map Diagnostic.names =
        ((Part.all.flatMap Part.fields).filter (·.isDropped o)).map
          (fun f => (some f.block.name, some f.name)) ∧
      (events.filter (·.isNamed "decoder.section_malformed")).map (·.text? "section") =
        (Part.all.filter (·.isMalformed o)).map (fun p => some p.name) ∧
      ∀ f : Field,
        (∀ v, f.lookup ((Part.block f.block).members o) = some v → v = .null) ∨
            ((ofDocument o).value f).isSome = true →
          ∀ e ∈ events, e.name = "decoder.field_invalid" →
            Diagnostic.names e ≠ (some f.block.name, some f.name) := by
  intro events
  have hInvalid : (events.filter (·.isNamed "decoder.field_invalid")).map Diagnostic.names =
      ((Part.all.flatMap Part.fields).filter (·.isDropped o)).map
        (fun f => (some f.block.name, some f.name)) := by
    simp only [events]
    rw [filter_isNamed net sockets context h (Diagnostic.name_logged_invalid context) (by decide),
      filter_invalid, List.map_map]
    exact map_filterMap_eq fun f _ => f.map_names_diagnostic? o context
  have hMalformed : (events.filter (·.isNamed "decoder.section_malformed")).map
      (·.text? "section") = (Part.all.filter (·.isMalformed o)).map (fun p => some p.name) := by
    simp only [events]
    rw [filter_isNamed net sockets context h (Diagnostic.name_logged_malformed context)
      (by decide), filter_malformed, List.map_map]
    exact map_filterMap_eq fun p _ => p.map_section_diagnostic? o context
  refine ⟨hInvalid, hMalformed, fun f hKept e he hName hNames => ?_⟩
  -- an event with the names of the field is about the field, so its value is dropped
  have hMem : Diagnostic.names e ∈
      ((Part.all.flatMap Part.fields).filter (·.isDropped o)).map
        (fun f => (some f.block.name, some f.name)) := by
    rw [← hInvalid]
    exact List.mem_map_of_mem (List.mem_filter.mpr ⟨he, beq_iff_eq.mpr hName⟩)
  obtain ⟨g, hg, hSame⟩ := List.mem_map.mp hMem
  rw [hNames, Prod.mk.injEq, Option.some.injEq, Option.some.injEq] at hSame
  obtain rfl := Field.eq_of_names_eq hSame.1 hSame.2
  obtain ⟨⟨v, hLookup, hNe⟩, hUnknown⟩ :=
    Field.isDropped_eq_true_iff.mp (List.mem_filter.mp hg).2
  rcases hKept with hNull | hValue
  · exact hNe (hNull v hLookup)
  · rw [hUnknown] at hValue
    cases hValue

/-- A boolean for a number under the name of a field, a text for a flag, a null, a receiver that is
no object, and a table that is none. -/
theorem logged_exactly_of_faults :
    let reply : Reply := .text
      ("\x7b\"gnss\": 5, \"clock\": \x7b\"offset\": true, \"clock_class\": null\x7d, " ++
        Text.ofString "\"oscillator\": \x7b\"lock\": \"maybe\", \"model\": \"x\"\x7d, " ++
        Text.ofString "\"disciplining_parameters\": \x7b\"temperature_table\": []\x7d\x7d")
    let events := (((Exchange.readReport reply).run ⟨.ok [], fun _ => {}, .null⟩ 0 []).above
      Log.Level.debug.number).events
    (events.filter (·.isNamed "decoder.field_invalid")).map Diagnostic.names =
        [(some Block.oscillator.name, some Field.lock.name),
          (some Block.clock.name, some Field.offset.name)] ∧
      (events.filter (·.isNamed "decoder.section_malformed")).map (·.text? "section") =
        [some Block.gnss.name, some Part.temperatureTable.name] := by
  intro reply events
  have hDocument : reply.document = .ok
      [("gnss", .int 5), ("clock", .object [("offset", .bool true), ("clock_class", .null)]),
        ("oscillator", .object [("lock", .text "maybe"), ("model", .text "x")]),
        ("disciplining_parameters", .object [("temperature_table", .list [])])] := by
    subst reply
    cbv
  obtain ⟨hInvalid, hMalformed, -⟩ := logged_exactly ⟨.ok [], fun _ => {}, .null⟩ 0 [] hDocument
  refine ⟨hInvalid.trans ?_, hMalformed.trans ?_⟩
  · cbv
  · cbv

end Report

end OscMonitor
