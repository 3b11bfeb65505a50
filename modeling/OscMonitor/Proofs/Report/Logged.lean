import OscMonitor.Proofs.Exchange.Stages
import OscMonitor.Proofs.Report.Reading

/-!
# What is logged of a reply

The log tells one diagnostic by its name, the section it is about and, for a field, its name. What
an exchange has bound is added to an event but never hides what the event says itself, so the
diagnostics of a reply can be found in the log again.

* `text?_within` — what is bound does not hide the fields of an event.
* `part_mem_parts` — the diagnostics of a topic are about its parts.
* `filter_reports` — of what is logged, exactly the diagnostics of a topic are about the topic.
-/

namespace OscMonitor

/-! ## Events -/

namespace Log.Event

/-- Whether an event has a name. -/
def isNamed (name : Text) (e : Event) : Bool := e.name == name

/-- The text that an event has under a name. -/
def text? (e : Event) (name : Text) : Option Text :=
  match e.fields.get? name with
  | some (.text t) => some t
  | _ => none

/-- What is bound does not hide the fields of an event. -/
theorem text?_within {e : Event} {name t : Text} (h : e.text? name = some t) (c : Context) :
    (e.within c).text? name = some t := by
  unfold text? at h ⊢
  rw [within, Keyed.get?_append]
  cases hGet : e.fields.get? name with
  | none => simp [hGet] at h
  | some v => rwa [hGet] at h

end Log.Event

namespace Diagnostic

/-- The part of a reply that a diagnostic is about. -/
def part : Diagnostic → Part
  | malformed p _ => p
  | invalid f _ _ => .block f.block

/-- The event of a diagnostic, as an exchange logs it. -/
def logged (context : Log.Context) (d : Diagnostic) : Log.Event :=
  (Notice.diagnostic d).event.within context

/-- The log names the part that a diagnostic is about. -/
theorem section_logged (context : Log.Context) (d : Diagnostic) :
    (d.logged context).text? "section" = some d.part.name := by
  refine Log.Event.text?_within ?_ context
  cases d <;> rfl

/-- The log names the field that a diagnostic is about. -/
theorem field_logged (context : Log.Context) (f : Field) (v : Value) (reason : Rejection) :
    ((invalid f v reason).logged context).text? "field" = some f.name :=
  Log.Event.text?_within rfl context

end Diagnostic

/-! ## Topics -/

namespace Topic

/-- Whether an event reports that something in a topic is left out. -/
def reports (topic : Topic) (e : Log.Event) : Bool :=
  (e.isNamed "decoder.field_invalid" || e.isNamed "decoder.section_malformed") &&
    topic.parts.any fun p => e.text? "section" == some p.name

theorem eq_of_part_name_eq {s t : Topic} :
    ∀ p ∈ s.parts, ∀ q ∈ t.parts, p.name = q.name → s = t := by
  cases s <;> cases t <;> decide +kernel

/-- The diagnostics of a topic are about its parts. -/
theorem part_mem_parts {topic : Topic} {o : Object} {d : Diagnostic}
    (h : d ∈ topic.diagnostics o) : d.part ∈ topic.parts := by
  obtain ⟨p, hp, hd⟩ := List.mem_flatMap.mp h
  rcases List.mem_append.mp hd with hPart | hField
  · obtain ⟨v, -, rfl⟩ := Option.map_eq_some_iff.mp (Option.mem_toList.mp hPart)
    exact hp
  · obtain ⟨f, hf, hDiagnostic⟩ := List.mem_filterMap.mp hField
    obtain ⟨v, reason, -, -, rfl⟩ := Field.diagnostic?_eq_some_iff.mp hDiagnostic
    -- only blocks have fields, and each field is in its own block
    cases p with
    | block b =>
      obtain rfl := (Field.mem_fields_iff f b).mp hf
      exact hp
    | parameters => cases hf
    | temperatureTable => cases hf

theorem reports_logged_iff {s t : Topic} {o : Object} {d : Diagnostic}
    (h : d ∈ s.diagnostics o) (context : Log.Context) :
    t.reports (d.logged context) = true ↔ s = t := by
  have hPart := part_mem_parts h
  have hName : ((d.logged context).isNamed "decoder.field_invalid" ||
      (d.logged context).isNamed "decoder.section_malformed") = true := by
    cases d <;> rfl
  rw [reports, hName, Bool.true_and, List.any_eq_true]
  simp only [Diagnostic.section_logged, beq_iff_eq, Option.some.injEq]
  constructor
  · rintro ⟨q, hq, hEq⟩
    exact eq_of_part_name_eq _ hPart q hq hEq
  · rintro rfl
    exact ⟨d.part, hPart, rfl⟩

end Topic

namespace Report

variable (net : Network) (sockets : Nat) (context : Log.Context)

/-- What is logged when the object of a reply is read: its diagnostics, and last the topics. -/
theorem events_readReport {reply : Reply} {o : Object} (h : reply.document = .ok o) :
    ((Exchange.readReport reply).run net sockets context).events =
      (diagnostics o).map (Diagnostic.logged context) ++
        [(Notice.decoded (ofDocument o).topicNames).event.within context] := by
  rw [Exchange.readReport_run, h]
  rfl

/-- Of what is logged, exactly the diagnostics of a topic are about the topic. -/
theorem filter_reports {reply : Reply} {o : Object} (h : reply.document = .ok o) (topic : Topic) :
    ((Exchange.readReport reply).run net sockets context).events.filter topic.reports =
      (topic.diagnostics o).map (Diagnostic.logged context) := by
  -- the diagnostics of a topic are kept as a whole or dropped as a whole
  have hTopic : ∀ t : Topic, ((t.diagnostics o).map (Diagnostic.logged context)).filter
      topic.reports = if t = topic then (t.diagnostics o).map (Diagnostic.logged context)
        else [] := by
    intro t
    split
    · next hEq =>
      refine List.filter_eq_self.mpr fun e he => ?_
      obtain ⟨d, hd, rfl⟩ := List.mem_map.mp he
      exact (Topic.reports_logged_iff hd context).mpr hEq
    · next hNe =>
      refine List.filter_eq_nil_iff.mpr fun e he => ?_
      obtain ⟨d, hd, rfl⟩ := List.mem_map.mp he
      exact fun hReports => hNe ((Topic.reports_logged_iff hd context).mp hReports)
  have hDecoded : [(Notice.decoded (ofDocument o).topicNames).event.within context].filter
      topic.reports = [] := rfl
  rw [events_readReport net sockets context h, List.filter_append, hDecoded, List.append_nil,
    diagnostics, List.map_flatMap, List.filter_flatMap, funext hTopic]
  cases topic <;> simp [Topic.all]

end Report

end OscMonitor
