import OscMonitor.Proofs.Document.Paired
import OscMonitor.Proofs.Log.Rendered
import OscMonitor.Text.Fill

/-!
# Events written as JSON are read back line by line

An event as a JSON object is one line: what would end it is escaped, whatever the event says. So the
lines of a log are its events, and each line reads back as an object with the name of its event and
the component that logged it, in whatever order its members are written.

* `Text.splitLines` are the lines of a text, and `Text.splitLines_lines` gives them back.
* `Line.read_json` — a line reads back.
* `entries?` reads a log, `namesBy` picks out the events of a component, and `entries?_lines` — a
  log of JSON lines is read as the events that were written.
-/

namespace OscMonitor

/-! ## Lines -/

namespace Text

/-- The lines of a text, without their line ends; `line` is the line so far, in reverse. A line
without a line end counts when there is something on it. -/
def splitLinesAfter (line : Text) : Text → List Text
  | [] => if line.isEmpty then [] else [line.reverse]
  | p :: t =>
    if p = .scalar '\n' then line.reverse :: splitLinesAfter [] t else splitLinesAfter (p :: line) t

def splitLines (t : Text) : List Text := splitLinesAfter [] t

theorem splitLinesAfter_append (line : Text) {t : Text} (h : ∀ p ∈ t, p ≠ .scalar '\n')
    (rest : Text) :
    splitLinesAfter line (t ++ "\n" ++ rest) = (line.reverse ++ t) :: splitLinesAfter [] rest := by
  induction t generalizing line with
  | nil => rw [List.append_nil]; rfl
  | cons p t ih =>
    obtain ⟨hp, ht⟩ := List.forall_mem_cons.mp h
    show splitLinesAfter line (p :: (t ++ "\n" ++ rest)) = _
    rw [splitLinesAfter, if_neg hp, ih (p :: line) ht, List.reverse_cons, List.append_assoc]
    rfl

/-- Texts without line ends are the lines of what they are laid out in. -/
theorem splitLines_lines {ts : List Text} (h : ∀ t ∈ ts, ∀ p ∈ t, p ≠ .scalar '\n') :
    splitLines (lines ts) = ts := by
  induction ts with
  | nil => rfl
  | cons t ts ih =>
    obtain ⟨ht, hts⟩ := List.forall_mem_cons.mp h
    have hLines : lines (t :: ts) = t ++ "\n" ++ lines ts := rfl
    rw [splitLines, hLines, splitLinesAfter_append [] ht, List.reverse_nil, List.nil_append]
    exact congrArg (t :: ·) (ih hts)

/-- What is visible ends no line. -/
theorem ne_lineEnd_of_isVisible {t : Text} (h : t.IsVisible) : ∀ p ∈ t, p ≠ .scalar '\n' := by
  rintro p hp rfl
  exact absurd (h _ hp).1 (by decide)

end Text

namespace Log

/-! ## Fields -/

/-- What is bound can be written, and the log takes none of it for a record of its own. -/
structure Context.Fit (c : Context) : Prop where
  writable : Object.Writable 2 c
  plain : c.get? "_record" = none

namespace Context.Fit

variable {c : Context}

theorem nil : Fit [] := ⟨.nil, rfl⟩

theorem enter (h : c.Fit) (x : Exchange) : (c.enter x).Fit where
  writable := ((h.writable.insert (by decide) (.text _)).insert (by decide) (.text _)).insert
    (by decide) (.text _)
  plain := by
    rw [Context.enter, Keyed.get?_insert_of_ne _ _ (by decide),
      Keyed.get?_insert_of_ne _ _ (by decide), Keyed.get?_insert_of_ne _ _ (by decide)]
    exact h.plain

theorem leave (h : c.Fit) : c.leave.Fit where
  writable := h.writable.filter _
  plain := by
    rw [Context.leave, Keyed.get?_filter fun name => !exchangeNames.contains name, h.plain]
    exact ite_self _

end Context.Fit

namespace Event

variable {room : Nat} {e : Event} {c : Context}

/-- What is bound adds only what an event does not set itself. -/
theorem writable_within (h : e.fields.Writable room) (hContext : Object.Writable room c) :
    (e.within c).fields.Writable room := by
  refine h.append (hContext.filter _) fun key hKey hBound => ?_
  obtain ⟨m, hm, rfl⟩ := List.mem_map.mp hBound
  have hNew := (List.mem_filter.mp hm).2
  have hNone : e.fields.get? m.1 = none := by
    simpa [Keyed.has] using hNew
  exact Keyed.get?_eq_none_iff.mp hNone hKey

theorem get?_within (e : Event) (c : Context) (name : Text) :
    (e.within c).fields.get? name = (e.fields.get? name).or (c.get? name) := by
  rw [within, Keyed.get?_append, Keyed.get?_filter fun name => !e.fields.has name, Keyed.has]
  cases e.fields.get? name <;> rfl

end Event

/-! ## Written lines -/

namespace Line

variable {room : Nat} {e : Event}

theorem writable_answer {fields : Object} (h : fields.Writable room) (e : Event) (question : Text)
    {place : Text} (hPlace : place.Joined) (text? : Option Text) :
    (answer e question place text? fields).Writable room := by
  unfold answer
  split
  · split
    · exact h.insert hPlace (.text _)
    · exact h
  · exact h

theorem get?_answer_of_ne {name place : Text} (hName : name ≠ place) (e : Event) (question : Text)
    (text? : Option Text) (fields : Object) :
    (answer e question place text? fields).get? name = fields.get? name := by
  unfold answer
  split
  · split
    · exact Keyed.get?_insert_of_ne _ _ hName
    · rfl
  · rfl

theorem writable_answered (h : e.fields.Writable room) (m : Moment) :
    (answered m e).Writable room :=
  writable_answer (writable_answer (h.filter _) e _ (by decide) _) e _ (by decide) _

/-- The object that stands for an event has no name twice. -/
theorem writable_entry (h : e.fields.Writable room) (m : Moment) : (entry m e).Writable room :=
  ((((writable_answered h m).insert (by decide) (.text _)).insert (by decide) (.text _)).insert
    (by decide) (.text _)).insert (by decide) (.text _)

theorem get?_entry_event (m : Moment) (e : Event) :
    (entry m e).get? "event" = some (.text e.name) := by
  rw [entry, Keyed.get?_insert_of_ne _ _ (by decide), Keyed.get?_insert_of_ne _ _ (by decide),
    Keyed.get?_insert_of_ne _ _ (by decide), Keyed.get?_insert_self]

/-- The component that logs an event stands in the object as the event has it. -/
theorem get?_entry_component (m : Moment) (e : Event) :
    (entry m e).get? "component" = e.fields.get? "component" := by
  rw [entry, Keyed.get?_insert_of_ne _ _ (by decide), Keyed.get?_insert_of_ne _ _ (by decide),
    Keyed.get?_insert_of_ne _ _ (by decide), Keyed.get?_insert_of_ne _ _ (by decide), answered,
    get?_answer_of_ne (by decide), get?_answer_of_ne (by decide),
    Keyed.get?_filter fun name => !hiddenNames.contains name]
  exact if_pos (by decide)

/-- An event whose fields can be written has a line: no moment has room for less. -/
theorem renders_of_writable (h : e.fields.Writable 2) (m : Moment) : e.Renders m .json := by
  intro field hField
  have hChecked := Value.check_eq_ok_iff.mp ((writable_entry h m).values field hField).check
  exact ⟨Nat.lt_of_lt_of_le (Nat.lt_succ_of_le hChecked.1) m.enough, hChecked.2⟩

/-- **A line reads back.** What is written of an event as JSON is an object with the name of the
event and with its fields, halves of surrogate pairs put together; and no line end is in it. -/
theorem read_json (h : e.fields.Writable room) (hRoom : room < Reader.depthLimit) (m : Moment) :
    (∀ p ∈ json m e, p ≠ .scalar '\n') ∧
      ∃ o : Object, Value.read (json m e) = .ok (.object o) ∧
        o.get? "event" = some (.text e.name.paired) ∧
        o.get? "component" =
          (e.fields.get? "component").map fun v => (v.arranged m.arrangement).paired := by
  refine ⟨Text.ne_lineEnd_of_isVisible (Value.isVisible_spaced _), ?_⟩
  have hEntry := writable_entry h m
  have hRead := Value.read_arranged m.arrangement (hEntry.value.mono hRoom)
  obtain ⟨o, hObject, hGet⟩ := Value.object_arranged_paired m.arrangement hEntry.keys
  rw [hObject] at hRead
  refine ⟨o, hRead, ?_, ?_⟩
  · rw [hGet, get?_entry_event]
    rfl
  · rw [hGet, get?_entry_component]

end Line

/-! ## Logs of JSON lines -/

/-- The object on a line. -/
def readEntry? (line : Text) : Option Object :=
  match Value.read line with
  | .ok (.object o) => some o
  | _ => none

/-- The entries of a log, if every line of it is one object. -/
def entries? (t : Text) : Option (List Object) := t.splitLines.mapM readEntry?

/-- Whether fields name a component. -/
def isBy (component : Text) (fields : Object) : Bool :=
  match fields.get? "component" with
  | some (.text t) => t == component
  | _ => false

/-- What the events of a component are called, in order. -/
def namesBy (component : Text) (entries : List Object) : List (Option Value) :=
  (entries.filter (isBy component)).map fun entry => entry.get? "event"

/-- An event that can be written and is not taken for a record of the log, and that one of some
components logs. -/
structure Event.IsOf (components : List Text) (e : Event) : Prop where
  fields : e.fields.Writable 2
  plain : e.fields.get? "_record" = none
  component : ∃ component ∈ components, e.fields.get? "component" = some (.text component)

namespace Event.IsOf

variable {components : List Text} {e : Event}

theorem mono (h : e.IsOf components) {components' : List Text} (hSub : components ⊆ components') :
    e.IsOf components' where
  fields := h.fields
  plain := h.plain
  component := by
    obtain ⟨component, hMem, hGet⟩ := h.component
    exact ⟨component, hSub hMem, hGet⟩

theorem posesAsRecord_eq_false (h : e.IsOf components) : e.posesAsRecord = false := by
  rw [posesAsRecord, h.plain]

/-- What is bound does not change who logs an event. -/
theorem within (h : e.IsOf components) {c : Context} (hContext : c.Fit) :
    (e.within c).IsOf components where
  fields := writable_within h.fields hContext.writable
  plain := by rw [get?_within, h.plain, hContext.plain, Option.or_none]
  component := by
    obtain ⟨component, hMem, hGet⟩ := h.component
    refine ⟨component, hMem, ?_⟩
    rw [get?_within, hGet, Option.some_or]

theorem isBy {component : Text} (h : e.IsOf [component]) : isBy component e.fields = true := by
  obtain ⟨own, hMem, hGet⟩ := h.component
  obtain rfl := List.mem_singleton.mp hMem
  rw [Log.isBy, hGet]
  exact beq_self_eq_true own

theorem isBy_eq_false (h : e.IsOf components) {component : Text} (hNot : component ∉ components) :
    Log.isBy component e.fields = false := by
  obtain ⟨own, hMem, hGet⟩ := h.component
  rw [Log.isBy, hGet]
  refine beq_eq_false_iff_ne.mpr ?_
  rintro rfl
  exact hNot hMem

end Event.IsOf

/-- Events as JSON lines are entries again, each by its component and with its name. -/
theorem entries?_lines (m : Moment) {components : List Text}
    (hJoined : ∀ component ∈ components, component.Joined) {events : List Event}
    (h : ∀ e ∈ events, e.IsOf components) (component : Text) :
    ∃ entries, entries? (Text.lines (events.map (Line.json m))) = some entries ∧
      namesBy component entries =
        (events.filter fun e => isBy component e.fields).map fun e =>
          some (Value.text e.name.paired) := by
  have hRoom : 2 < Reader.depthLimit := by decide
  have hLines : Text.splitLines (Text.lines (events.map (Line.json m))) =
      events.map (Line.json m) := by
    refine Text.splitLines_lines (List.forall_mem_map.mpr fun e he => ?_)
    exact (Line.read_json (h e he).fields hRoom m).1
  rw [entries?, hLines]
  clear hLines
  induction events with
  | nil => exact ⟨[], rfl, rfl⟩
  | cons e events ih =>
    obtain ⟨he, hEvents⟩ := List.forall_mem_cons.mp h
    obtain ⟨entries, hRead, hNames⟩ := ih hEvents
    obtain ⟨-, entry, hEntry, hName, hBy⟩ := Line.read_json he.fields hRoom m
    obtain ⟨own, hMem, hOwn⟩ := he.component
    -- the component is read as it was written
    have hSame : isBy component entry = isBy component e.fields := by
      rw [isBy, isBy, hBy, hOwn]
      show (own.paired == component) = (own == component)
      rw [Text.paired_of_joined (hJoined own hMem)]
    refine ⟨entry :: entries, ?_, ?_⟩
    · rw [List.map_cons, List.mapM_cons, hRead, readEntry?, hEntry]
      rfl
    · rw [namesBy, List.filter_cons, List.filter_cons, hSame]
      by_cases hMine : isBy component e.fields = true
      · rw [if_pos hMine, if_pos hMine, List.map_cons, List.map_cons, hName]
        exact congrArg _ hNames
      · rw [if_neg hMine, if_neg hMine]
        exact hNames

end Log

end OscMonitor
