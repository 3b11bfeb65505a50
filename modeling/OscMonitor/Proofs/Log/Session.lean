import OscMonitor.Log.Session
import OscMonitor.Proofs.Document.Ascii
import OscMonitor.Proofs.Log.Rendered
import OscMonitor.Text.Fill

/-!
# What a session with the log comes to

Set-ups, refused set-ups, loggers obtained on the way and logged events come in any order. What a
session has written and where it writes next is told by an account that knows nothing of handlers
that are put in and taken out: it lists the set-ups that took effect, and the records.

Nothing is assumed of a moment at which something is logged but what `Moment` says: the encodings
of the streams are any that have ASCII, JSON has its members in any order, and there is room for
three levels at least. So the account tells of every moment which events are lost. An event is lost
without a trace, since a handler makes the whole line before it writes any of it.

The account is a state of its own and not part of the system's. It grows by the deeds alone: which
files can be opened, what the environment says and what a moment is like are part of a deed, and no
outcome of the system is looked at. That it fits the session is then an invariant of every deed
(`Account.Fits`), with which each of the claims about handlers, levels and records can be read off
the account. The loggers and what is bound are kept in it since an event is written with them.

What the streams do is taken to be all right otherwise: a stream takes what it can encode, and what
it took stays. That a disk is full or a file is changed by others is no matter of the log.

* `Setup.handler?` is what a set-up asks for, and `Handler.record?` is what becomes of an event.
* `Handler.Writes` says when a call that logs is written, and `Handler.writes_iff` that there is a
  record exactly then.
* `Account.after` takes account of one deed; a set-up takes effect when it is the first that is not
  refused, or when it insists.
* `Account.Fits.step` is the step, and `run_accounts` the run: the handler of the last set-up that
  took effect is the only one, and what was written is the records, after what was there.
-/

namespace OscMonitor.Log

/-! ## What a set-up asks for -/

/-- The handler that a set-up asks for, where only some files can be opened. -/
def Setup.handler? (opens : Text → Bool) (setup : Setup) : Except SetupFault Handler :=
  match setup.file.filter fun path => !opens path with
  | some path => .error (.file path)
  | none =>
    match Threshold.ofName setup.level with
    | .error fault => .error (.threshold fault)
    | .ok threshold => .ok ⟨setup.destination, threshold, Format.ofName setup.format⟩

/-- Where the file can be opened, a set-up has the level of its name, and the level of information
when nothing has that name. -/
theorem Setup.handler?_eq {opens : Text → Bool} (setup : Setup)
    (hOpens : ∀ path, setup.file = some path → opens path = true)
    (hName : Threshold.takenNames.lookup setup.level.upper = none) :
    setup.handler? opens = .ok ⟨setup.destination,
      (Threshold.names.lookup setup.level.upper).getD Level.info.number,
      Format.ofName setup.format⟩ := by
  have hFile : setup.file.filter (fun path => !opens path) = none := by
    cases hPath : setup.file with
    | none => rfl
    | some path =>
      rw [Option.filter_some, hOpens path hPath]
      rfl
  have hLevel : Threshold.ofName setup.level =
      .ok ((Threshold.names.lookup setup.level.upper).getD Level.info.number) := by
    rw [Threshold.ofName, Threshold.ofUpperName, hName]
    rfl
  simp only [handler?, hFile, hLevel]

namespace System

/-- Two states of the system between which nothing happened, but that files came into being. A
set-up opens its file before the level is read, so a refusal can leave an empty file behind; that is
why contents are compared, and a file that is not there counts as an empty one. -/
structure Unmoved (s s' : System) : Prop where
  configured : s'.configured = s.configured
  threshold : s'.threshold = s.threshold
  handlers : s'.handlers = s.handlers
  context : s'.context = s.context
  console : s'.console = s.console
  contents : ∀ path, (s'.contents? path).getD [] = (s.contents? path).getD []

theorem Unmoved.refl (s : System) : s.Unmoved s := ⟨rfl, rfl, rfl, rfl, rfl, fun _ => rfl⟩

theorem touch_unmoved (setup : Setup) (s : System) : s.Unmoved (s.touch setup) := by
  unfold touch
  split
  · next path _ =>
    refine ⟨rfl, rfl, rfl, rfl, rfl, fun other => ?_⟩
    by_cases hPath : other = path
    · subst hPath
      simp only [contents?, get?_append_self, List.append_nil, Option.getD_some]
    · simp only [contents?, get?_append_of_ne [] s.files hPath]
  · exact .refl s

/-- The system with one handler in the place of those that were there. -/
def install (h : Handler) (s : System) : System :=
  { s with configured := true, threshold := h.threshold, handlers := [h] }

/-- **What a set-up can do.** It is passed over, it is refused and nothing moves, or the handler
that it asks for takes the place of all others. Everything about set-ups comes from these three
cases, and none of the definitions behind them is opened again. -/
theorem setUp_cases (opens : Text → Bool) (setup : Setup) (s : System) :
    (s.accepts setup = false ∧ s.setUp opens setup = (.ok (), s)) ∨
    (s.accepts setup = true ∧ ∃ fault, setup.handler? opens = .error fault ∧
      (s.setUp opens setup).1 = .error fault ∧ s.Unmoved (s.setUp opens setup).2) ∨
    (s.accepts setup = true ∧ ∃ h, setup.handler? opens = .ok h ∧
      s.setUp opens setup = (.ok (), (s.touch setup).install h)) := by
  cases hAccepts : s.accepts setup with
  | false =>
    have hConfigure : s.configure setup = (.ok (), s) := by simp [configure, hAccepts]
    refine .inl ⟨rfl, ?_⟩
    unfold setUp
    split
    · simp [hAccepts]
    · rw [hConfigure]
      rfl
  | true =>
    refine .inr ?_
    cases hFile : setup.file.filter fun path => !opens path with
    | some path =>
      -- the file is tried before the name of the threshold is read
      refine .inl ⟨rfl, .file path, ?_, ?_, ?_⟩ <;>
        simp [Setup.handler?, setUp, hFile, hAccepts, Unmoved.refl]
    | none =>
      have hSetUp : s.setUp opens setup =
          ((s.configure setup).1.mapError .threshold, (s.configure setup).2) := by
        simp only [setUp, hFile]
      cases hLevel : Threshold.ofName setup.level with
      | error fault =>
        have hConfigure : s.configure setup = (.error fault, s.touch setup) := by
          simp [configure, hAccepts, hLevel]
        rw [hSetUp, hConfigure]
        refine .inl ⟨rfl, .threshold fault, ?_, rfl, touch_unmoved setup s⟩
        simp [Setup.handler?, hFile, hLevel]
      | ok threshold =>
        let h : Handler := ⟨setup.destination, threshold, Format.ofName setup.format⟩
        have hConfigure : s.configure setup = (.ok (), (s.touch setup).install h) := by
          simp [configure, hAccepts, hLevel, install, h]
        rw [hSetUp, hConfigure]
        refine .inr ⟨rfl, h, ?_, rfl⟩
        simp [Setup.handler?, hFile, hLevel, h]

/-- To set the system up from the environment is a set-up that does not insist, and that cannot fail
to open its file since it has none. So the cases of set-ups hold of it too. -/
theorem setUp_environment (level format : Option Text) (s : System) :
    s.setUp (fun _ => true) (environmentSetup level format) =
      ((s.ensure level format).1.mapError .threshold, (s.ensure level format).2) := by
  have hFile : (environmentSetup level format).file.filter (fun _ => !true) = none := rfl
  have hInsists : (environmentSetup level format).insists = false := rfl
  simp only [setUp, hFile, ensure]
  cases hConfigured : s.configured with
  | true => simp [configure, accepts, hConfigured, hInsists]
  | false => rfl

/-- After that the system is set up, unless the environment was refused. -/
theorem configured_ensure (level format : Option Text) (s : System) :
    (s.ensure level format).2.configured = (s.ensure level format).1.toBool := by
  unfold ensure
  cases hConfigured : s.configured with
  | true => exact hConfigured
  | false =>
    rcases hRun : s.configure (environmentSetup level format) with ⟨outcome, system⟩
    unfold configure at hRun
    have hAccepts : s.accepts (environmentSetup level format) = true := by
      simp [accepts, hConfigured]
    rw [if_pos hAccepts] at hRun
    split at hRun
    · obtain ⟨rfl, rfl⟩ := Prod.mk.inj hRun
      exact hConfigured
    · obtain ⟨rfl, rfl⟩ := Prod.mk.inj hRun
      rfl

end System

/-! ## What becomes of an event -/

/-- The end of a line is in every encoding. -/
theorem Destination.takes_lineEnd (m : Moment) (d : Destination) (line : Text) :
    d.takes m (line ++ "\n") = d.takes m line := by
  have hEnd : ∀ e : Encoding, e.takes (line ++ ("\n" : Text)) = e.takes line := by
    intro e
    have hNewline : e.takes ("\n" : Text) = true :=
      Encoding.takes_iff.mpr (List.forall_mem_singleton.mpr (e.ascii _ (by decide)))
    rw [Encoding.takes_append, hNewline, Bool.and_true]
  cases d with
  | nowhere => rfl
  | console => exact hEnd m.console
  | file path => exact hEnd m.files

/-- ASCII can be written wherever anything can. -/
theorem Destination.takes_of_isAscii {m : Moment} {d : Destination} (hSomewhere : d ≠ .nowhere)
    {t : Text} (h : t.IsAscii) : d.takes m t = true := by
  cases d with
  | nowhere => exact absurd rfl hSomewhere
  | console => exact m.console.takes_of_isAscii h
  | file path => exact m.files.takes_of_isAscii h

/-- A line that has been written. -/
structure Record where
  destination : Destination
  line : Text
  deriving DecidableEq, Repr

namespace Handler

variable {m : Moment} {e : Event} {h : Handler}

/-- What a handler writes of an event: its line, if the event reaches the threshold and there is a
line of it that the stream can encode. -/
def record? (m : Moment) (e : Event) (h : Handler) : Option Record :=
  if e.reaches h.threshold then
    ((e.line? h.format m).toOption.filter (h.destination.takes m)).map fun line =>
      ⟨h.destination, line⟩
  else none

theorem record?_eq_some_iff {r : Record} :
    h.record? m e = some r ↔ e.reaches h.threshold = true ∧ e.line? h.format m = .ok r.line ∧
      h.destination.takes m r.line = true ∧ h.destination = r.destination := by
  obtain ⟨destination, line⟩ := r
  -- a record can be stopped in three places: by the threshold, by its rendering, by its stream
  unfold record?
  by_cases hReaches : e.reaches h.threshold = true
  · rw [if_pos hReaches]
    cases hLine : e.line? h.format m with
    | error fault => simp [Except.toOption]
    | ok line' =>
      simp only [Except.toOption, Option.map_eq_some_iff, Option.filter_eq_some_iff,
        Option.some.injEq, Record.mk.injEq, Except.ok.injEq, hReaches, true_and]
      constructor
      · rintro ⟨_, ⟨rfl, hTakes⟩, hPlace, rfl⟩
        exact ⟨rfl, hTakes, hPlace⟩
      · rintro ⟨rfl, hTakes, hPlace⟩
        exact ⟨_, ⟨rfl, hTakes⟩, hPlace, rfl⟩
  · simp [hReaches]

theorem text?_eq_ok_iff {text : Text} :
    h.text? m e = .ok text ↔ ∃ line, e.line? h.format m = .ok line ∧
      h.destination.takes m line = true ∧ text = line ++ "\n" := by
  rw [text?, bind_eq_ok_iff]
  refine exists_congr fun line => and_congr mapError_eq_ok_iff ?_
  dsimp only
  rw [Destination.takes_lineEnd]
  cases h.destination.takes m line with
  | true =>
    exact ⟨fun hText => ⟨rfl, (Except.ok.inj hText).symm⟩,
      fun hText => congrArg Except.ok hText.2.symm⟩
  | false => exact ⟨nofun, fun hText => nomatch hText.1⟩

/-- What a handler writes of an event that is logged while something is bound. -/
def recordOf? (m : Moment) (c : Context) (e : Event) (h : Handler) : Option Record :=
  if e.posesAsRecord then none else h.record? m (e.within c)

/-- When a call that logs an event is written. Everything that can be said against it is here: there
is no other way to lose an event. -/
structure Writes (m : Moment) (c : Context) (e : Event) (h : Handler) : Prop where
  somewhere : h.destination ≠ .nowhere
  reaches : h.threshold ≤ e.level.number
  plain : e.posesAsRecord = false
  renders : (e.within c).Renders m h.format
  encodes : ∀ line, (e.within c).line? h.format m = .ok line → h.destination.takes m line = true

/-- **There is a record of a call that logs exactly when it is written.** -/
theorem writes_iff {c : Context} : h.Writes m c e ↔ ∃ r, h.recordOf? m c e = some r := by
  constructor
  · intro hWrites
    obtain ⟨line, hLine⟩ := Event.exists_line_iff.mpr hWrites.renders
    refine ⟨⟨h.destination, line⟩, ?_⟩
    rw [recordOf?, hWrites.plain]
    exact record?_eq_some_iff.mpr
      ⟨decide_eq_true hWrites.reaches, hLine, hWrites.encodes line hLine, rfl⟩
  · rintro ⟨r, hRecord⟩
    rw [recordOf?, Option.ite_none_left_eq_some, Bool.not_eq_true] at hRecord
    obtain ⟨hPlain, hRecord⟩ := hRecord
    obtain ⟨hReaches, hLine, hTakes, -⟩ := record?_eq_some_iff.mp hRecord
    refine ⟨?_, of_decide_eq_true hReaches, hPlain, Event.exists_line_iff.mp ⟨_, hLine⟩, ?_⟩
    · intro hNowhere
      rw [hNowhere] at hTakes
      cases hTakes
    · intro line hLine'
      obtain rfl := Except.ok.inj (hLine.symm.trans hLine')
      exact hTakes

theorem line?_of_recordOf? {c : Context} {r : Record} (hRecord : h.recordOf? m c e = some r) :
    (e.within c).line? h.format m = .ok r.line := by
  rw [recordOf?, Option.ite_none_left_eq_some] at hRecord
  exact (record?_eq_some_iff.mp hRecord.2).2.1

theorem takes_of_recordOf? {c : Context} {r : Record} (hRecord : h.recordOf? m c e = some r) :
    h.destination = r.destination ∧ r.destination.takes m r.line = true := by
  rw [recordOf?, Option.ite_none_left_eq_some] at hRecord
  obtain ⟨-, -, hTakes, hPlace⟩ := record?_eq_some_iff.mp hRecord.2
  exact ⟨hPlace, hPlace ▸ hTakes⟩

/-- As JSON, an event that has a line is written whatever the encoding, if it reaches the
threshold. -/
theorem recordOf?_of_json {c : Context} (hFormat : h.format = .json)
    (hSomewhere : h.destination ≠ .nowhere) (hPlain : e.posesAsRecord = false)
    (hRenders : (e.within c).Renders m .json) :
    h.recordOf? m c e = if e.reaches h.threshold then
      some ⟨h.destination, Line.json m (e.within c)⟩ else none := by
  rw [recordOf?, hPlain, if_neg Bool.false_ne_true]
  split
  · next hReaches =>
    refine record?_eq_some_iff.mpr ⟨hReaches, ?_, ?_, rfl⟩
    · rw [hFormat]
      exact Line.json?_eq_ok_iff.mpr ⟨hRenders, rfl⟩
    · exact Destination.takes_of_isAscii hSomewhere (Value.isVisible_spaced _).isAscii
  · next hReaches => exact if_neg hReaches

end Handler

namespace System

variable {reports : Bool} {m : Moment} {e : Event} {s : System} {h : Handler}

/-- The system with one more record. -/
def record (r : Record) (s : System) : System := s.put r.destination (r.line ++ "\n")

/-- A handler adds its record and nothing else. Without a record nothing changes at all, whether or
not the call fails: it fails only when the levels run out or the loss cannot be reported. -/
theorem handle_cases (reports : Bool) (m : Moment) (e : Event) (s : System) (h : Handler) :
    (∃ r, h.record? m e = some r ∧ s.handle reports m e h = (.ok (), s.record r)) ∨
    (h.record? m e = none ∧ ∃ outcome, s.handle reports m e h = (outcome, s)) := by
  cases hRecord : h.record? m e with
  | some r =>
    obtain ⟨hReaches, hLine, hTakes, hPlace⟩ := Handler.record?_eq_some_iff.mp hRecord
    have hSomewhere : h.destination ≠ .nowhere := by
      intro hNowhere
      rw [hNowhere] at hTakes
      cases hTakes
    have hText : h.text? m e = .ok (r.line ++ "\n") :=
      Handler.text?_eq_ok_iff.mpr ⟨r.line, hLine, hTakes, rfl⟩
    refine .inl ⟨r, rfl, ?_⟩
    rw [handle, if_pos ⟨hSomewhere, hReaches⟩, hText, record, hPlace]
  | none =>
    refine .inr ⟨rfl, ?_⟩
    unfold handle
    split
    · next hBoth =>
      cases hText : h.text? m e with
      | error loss => exact ⟨_, rfl⟩
      | ok text =>
        -- a text that is written would be a record
        obtain ⟨line, hLine, hTakes, -⟩ := Handler.text?_eq_ok_iff.mp hText
        have hSome := Handler.record?_eq_some_iff (r := ⟨h.destination, line⟩) |>.mpr
          ⟨hBoth.2, hLine, hTakes, rfl⟩
        rw [hRecord] at hSome
        cases hSome
    · exact ⟨_, rfl⟩

/-- **One call.** With one handler in force, a call that logs adds its record and nothing else, or
changes nothing. The system has a level of its own, at which it stops an event before any handler
sees it; with a set-up in force this is the level of the handler, so the one test is the other. -/
theorem log_cases {s : System} {h : Handler} (hHandlers : s.handlers = [h])
    (hThreshold : s.threshold = h.threshold) (reports : Bool) (m : Moment) (e : Event) :
    (∃ r, h.recordOf? m s.context e = some r ∧ s.log reports m e = (.ok (), s.record r)) ∨
    (h.recordOf? m s.context e = none ∧ ∃ outcome, s.log reports m e = (outcome, s)) := by
  unfold log Handler.recordOf?
  by_cases hReaches : e.reaches s.threshold = true
  · rw [if_pos hReaches]
    cases e.posesAsRecord with
    | true => exact .inr ⟨rfl, _, rfl⟩
    | false =>
      rw [if_neg Bool.false_ne_true, if_neg Bool.false_ne_true, hHandlers, handleAll]
      rcases handle_cases reports m (e.within s.context) s h with
        ⟨r, hRecord, hHandle⟩ | ⟨hRecord, outcome, hHandle⟩
      · exact .inl ⟨r, hRecord, by rw [hHandle]; rfl⟩
      · refine .inr ⟨hRecord, ?_⟩
        rw [hHandle]
        cases outcome <;> exact ⟨_, rfl⟩
  · -- an event below the threshold does not get as far as the handler
    have hBelow : ¬ (e.within s.context).reaches h.threshold = true := by
      rw [← hThreshold]
      exact hReaches
    rw [if_neg hReaches, Handler.record?, if_neg hBelow, ite_self]
    exact .inr ⟨rfl, _, rfl⟩

theorem within_context_nil (e : Event) : e.within [] = e := by
  rw [Event.within, List.filter_nil, List.append_nil]

/-- What a handler puts on the console of many events, nothing being bound. -/
theorem console_foldl_write {s : System} {h : Handler} (hHandlers : s.handlers = [h])
    (hThreshold : s.threshold = h.threshold) (hContext : s.context = [])
    (hConsole : h.destination = .console) (m : Moment) (events : List Event) :
    (events.foldl (fun s e => s.write m e) s).console =
      s.console ++
        Text.lines (events.filterMap fun e => (h.recordOf? m [] e).map Record.line) := by
  -- on the events: what one of them writes does not change the handler or the context
  induction events generalizing s with
  | nil => exact (List.append_nil _).symm
  | cons e events ih =>
    rw [List.foldl_cons, List.filterMap_cons, write]
    rcases log_cases hHandlers hThreshold true m e with
      ⟨r, hRecord, hLog⟩ | ⟨hRecord, outcome, hLog⟩
    · -- a record on the console leaves everything else as it is
      have hPlace : r.destination = .console :=
        (Handler.takes_of_recordOf? hRecord).1.symm.trans hConsole
      have hPut : s.record r = { s with console := s.console ++ (r.line ++ "\n") } := by
        rw [record, hPlace]
        rfl
      have hRest := ih (s := { s with console := s.console ++ (r.line ++ "\n") })
        hHandlers hThreshold hContext
      rw [hContext] at hRecord
      rw [hLog, hRecord, Option.map_some]
      dsimp only
      rw [hPut, hRest]
      simp [Text.lines]
    · rw [hContext] at hRecord
      rw [hLog, hRecord]
      exact ih hHandlers hThreshold hContext

end System

/-! ## The account of a session -/

/-- What can be said of a session from its deeds alone. There are no handlers to be put in or taken
out: the set-ups that took effect are listed, and the last of them is the one in force. -/
structure Account where
  -- The handlers of the set-ups that took effect, the last one in force.
  handlers : List Handler
  loggers : List Logger
  context : Context
  -- What was written.
  records : List Record

namespace Account

/-- Before anything is done. -/
def start (context : Context) : Account := ⟨[], [], context, []⟩

/-- Takes account of a set-up that is not passed over. -/
def setUp (asked : Except SetupFault Handler) (a : Account) : Account :=
  match asked with
  | .ok h => { a with handlers := a.handlers ++ [h] }
  | .error _ => a

/-- What is written of an event of a logger. -/
def recordOf? (a : Account) (logger : Nat) (m : Moment) (level : Level) (name : Text)
    (fields : Object) : Option Record := do
  let l ← a.loggers[logger]?
  let h ← a.handlers.getLast?
  h.recordOf? m a.context (l.event level name fields)

/-- Takes account of a set-up from the environment, unless there is one. -/
def ensured (a : Account) (level format : Option Text) : Account :=
  if a.handlers = [] then
    a.setUp ((System.environmentSetup level format).handler? fun _ => true)
  else a

/-- Takes account of a deed. Without a set-up there are no loggers. -/
def after (a : Account) : Deed → Account
  | .configure setup opens =>
    if a.handlers = [] ∨ setup.insists then a.setUp (setup.handler? opens) else a
  | .obtain component fields level format =>
    let b := a.ensured level format
    if b.handlers = [] then b else { b with loggers := b.loggers ++ [.of component fields.members] }
  | .log logger m _ level name fields =>
    { a with records := a.records ++ (a.recordOf? logger m level name fields.members).toList }
  | .enter x => { a with context := a.context.enter x }
  | .leave => { a with context := a.context.leave }

/-- The account of deeds. -/
def of (context : Context) (deeds : List Deed) : Account := deeds.foldl after (start context)

/-- All that was written to a destination. -/
def written (d : Destination) (a : Account) : Text :=
  Text.lines ((a.records.filter fun r => r.destination = d).map Record.line)

/-- An account tells of a session what is true of it, the system it began with given. Until a set-up
takes effect the handlers and the level are those that were there before (`untouched`), and then
there is exactly one handler (`inForce`). What was in the streams at the beginning stands before
what was written (`console`, `files`). -/
structure Fits (s₀ : System) (a : Account) (s : Session) : Prop where
  configured : s.system.configured = true ↔ a.handlers ≠ []
  inForce : ∀ h, a.handlers.getLast? = some h →
    s.system.handlers = [h] ∧ s.system.threshold = h.threshold
  untouched : a.handlers = [] →
    s.system.handlers = s₀.handlers ∧ s.system.threshold = s₀.threshold ∧ s.loggers = []
  loggers : s.loggers = a.loggers
  context : s.system.context = a.context
  console : s.system.console = s₀.console ++ a.written .console
  files : ∀ path, (s.system.contents? path).getD [] =
    (s₀.contents? path).getD [] ++ a.written (.file path)

variable {s₀ : System} {a : Account} {s : Session}

theorem start_fits (h : s₀.configured = false) : (start s₀.context).Fits s₀ ⟨s₀, []⟩ where
  configured := by simp [h, start]
  inForce h hLast := by simp [start] at hLast
  untouched _ := ⟨rfl, rfl, rfl⟩
  loggers := rfl
  context := rfl
  console := (List.append_nil _).symm
  files path := (List.append_nil _).symm

/-! ## One deed -/

theorem Fits.of_unmoved (h : a.Fits s₀ s) {system : System} (hUnmoved : s.system.Unmoved system) :
    a.Fits s₀ { s with system } where
  configured := by rw [hUnmoved.configured, h.configured]
  inForce := by
    rw [hUnmoved.handlers, hUnmoved.threshold]
    exact h.inForce
  untouched := by
    rw [hUnmoved.handlers, hUnmoved.threshold]
    exact h.untouched
  loggers := h.loggers
  context := hUnmoved.context.trans h.context
  console := hUnmoved.console.trans h.console
  files path := (hUnmoved.contents path).trans (h.files path)

theorem Fits.install (hFits : a.Fits s₀ s) (h : Handler) :
    ({ a with handlers := a.handlers ++ [h] } : Account).Fits s₀
      { s with system := s.system.install h } where
  configured := by simp [System.install]
  inForce h' hLast := by
    obtain rfl : h = h' := by simpa using hLast
    exact ⟨rfl, rfl⟩
  untouched hNone := by simp at hNone
  loggers := hFits.loggers
  context := hFits.context
  console := hFits.console
  files := hFits.files

theorem Fits.accepts (h : a.Fits s₀ s) (setup : Setup) :
    s.system.accepts setup = true ↔ a.handlers = [] ∨ setup.insists = true := by
  have hConfigured : s.system.configured = false ↔ a.handlers = [] := by
    rw [← Bool.not_eq_true, h.configured, Decidable.not_not]
  rw [System.accepts, Bool.or_eq_true, Bool.not_eq_true', hConfigured]

/-- A set-up, whoever asks for it. The account takes notice of it under the same condition under
which the system accepts it. -/
theorem Fits.setUp (h : a.Fits s₀ s) (opens : Text → Bool) (setup : Setup) :
    (if a.handlers = [] ∨ setup.insists = true then a.setUp (setup.handler? opens) else a).Fits s₀
      { s with system := (s.system.setUp opens setup).2 } := by
  rcases System.setUp_cases opens setup s.system with
    ⟨hAccepts, hRun⟩ | ⟨hAccepts, fault, hAsked, -, hUnmoved⟩ | ⟨hAccepts, handler, hAsked, hRun⟩
  · have hNot : ¬ (a.handlers = [] ∨ setup.insists = true) := by
      rw [← h.accepts, hAccepts]
      exact Bool.false_ne_true
    rw [if_neg hNot, hRun]
    exact h
  · rw [if_pos ((h.accepts setup).mp hAccepts), hAsked]
    exact h.of_unmoved hUnmoved
  · rw [if_pos ((h.accepts setup).mp hAccepts), hAsked, hRun]
    exact (h.of_unmoved (System.touch_unmoved setup s.system)).install handler

/-- A logger comes last, once there is a set-up. -/
theorem Fits.obtain (h : a.Fits s₀ s) (hHandlers : a.handlers ≠ []) (l : Logger) :
    ({ a with loggers := a.loggers ++ [l] } : Account).Fits s₀
      { s with loggers := s.loggers ++ [l] } where
  configured := h.configured
  inForce := h.inForce
  untouched hNone := absurd hNone hHandlers
  loggers := by rw [h.loggers]
  context := h.context
  console := h.console
  files := h.files

theorem written_append (d : Destination) (a : Account) (r : Record) :
    ({ a with records := a.records ++ [r] } : Account).written d =
      a.written d ++ if r.destination = d then r.line ++ "\n" else [] := by
  by_cases hPlace : r.destination = d <;> simp [written, Text.lines, hPlace]

/-- A record goes to one stream, and the others stay as they are. -/
theorem Fits.record (h : a.Fits s₀ s) {r : Record} (hSomewhere : r.destination ≠ .nowhere) :
    ({ a with records := a.records ++ [r] } : Account).Fits s₀
      { s with system := s.system.record r } := by
  obtain ⟨destination, line⟩ := r
  -- the console has one stream; a file has its own, told from the others by its path
  cases destination with
  | nowhere => exact absurd rfl hSomewhere
  | console =>
    refine ⟨h.configured, h.inForce, h.untouched, h.loggers, h.context, ?_, fun path => ?_⟩
    · rw [written_append, if_pos rfl, ← List.append_assoc, ← h.console]
      rfl
    · rw [written_append, if_neg nofun, List.append_nil]
      exact h.files path
  | file path =>
    refine ⟨h.configured, h.inForce, h.untouched, h.loggers, h.context, ?_, fun other => ?_⟩
    · rw [written_append, if_neg nofun, List.append_nil]
      exact h.console
    · rw [written_append]
      by_cases hPath : other = path
      · subst hPath
        rw [if_pos rfl, ← List.append_assoc, ← h.files]
        simp only [System.record, System.put, System.contents?, System.get?_append_self,
          Option.getD_some]
      · rw [if_neg (fun hSame => hPath (Destination.file.inj hSame).symm), List.append_nil]
        simp only [System.record, System.put, System.contents?, System.get?_append_of_ne _ _ hPath]
        exact h.files other

/-- A set-up from the environment. -/
theorem Fits.ensured (h : a.Fits s₀ s) (level format : Option Text) :
    (a.ensured level format).Fits s₀ { s with system := (s.system.ensure level format).2 } := by
  have hSetUp := h.setUp (fun _ => true) (System.environmentSetup level format)
  have hInsists : (System.environmentSetup level format).insists = false := rfl
  rw [System.setUp_environment, hInsists] at hSetUp
  simp only [Bool.false_eq_true, or_false] at hSetUp
  exact hSetUp

/-- Whoever has a logger has a set-up, and its handler is the only one. -/
theorem Fits.exists_handler (h : a.Fits s₀ s) {logger : Nat} {l : Logger}
    (hLogger : s.loggers[logger]? = some l) :
    ∃ handler, a.handlers.getLast? = some handler ∧ s.system.handlers = [handler] ∧
      s.system.threshold = handler.threshold := by
  have hHandlers : a.handlers ≠ [] := by
    intro hNone
    rw [(h.untouched hNone).2.2] at hLogger
    cases hLogger
  obtain ⟨handler, hLast⟩ := Option.ne_none_iff_exists'.mp
    (mt List.getLast?_eq_none_iff.mp hHandlers)
  exact ⟨handler, hLast, h.inForce handler hLast⟩

/-- A call that logs. Of a logger that was never obtained nothing is asked: it logs nothing, and so
the account has no record. -/
theorem Fits.log (h : a.Fits s₀ s) (logger : Nat) (m : Moment) (reports : Bool) (level : Level)
    (name : Text) (fields : Fields logParameters) :
    (a.after (.log logger m reports level name fields)).Fits s₀
      (s.step (.log logger m reports level name fields)).2 := by
  show Fits s₀ { a with
    records := a.records ++ (a.recordOf? logger m level name fields.members).toList } _
  -- the number of the logger may be that of none; otherwise there is a set-up, and one handler
  cases hLogger : s.loggers[logger]? with
  | none =>
    have hStep : (s.step (.log logger m reports level name fields)).2 = s := by
      simp only [Session.step, hLogger]
    have hRecord : a.recordOf? logger m level name fields.members = none := by
      rw [recordOf?, ← h.loggers, hLogger]
      rfl
    rw [hStep, hRecord, Option.toList_none, List.append_nil]
    exact h
  | some l =>
    obtain ⟨handler, hLast, hInForce, hThreshold⟩ := h.exists_handler hLogger
    have hStep : (s.step (.log logger m reports level name fields)).2 =
        { s with
          system := (s.system.log reports m (l.event level name fields.members)).2 } := by
      simp only [Session.step, hLogger]
    have hRecord : a.recordOf? logger m level name fields.members =
        handler.recordOf? m s.system.context (l.event level name fields.members) := by
      rw [recordOf?, ← h.loggers, hLogger, hLast, h.context]
      rfl
    rw [hStep, hRecord]
    rcases System.log_cases hInForce hThreshold reports m (l.event level name fields.members) with
      ⟨r, hWritten, hLog⟩ | ⟨hLost, outcome, hLog⟩
    · rw [hWritten, hLog]
      refine h.record fun hNowhere => ?_
      have hTakes := (Handler.takes_of_recordOf? hWritten).2
      rw [hNowhere] at hTakes
      cases hTakes
    · rw [hLost, hLog, Option.toList_none, List.append_nil]
      exact h

/-- **One deed.** What it does to a session is what the account says. This is the invariant of a
whole session; a run only repeats it. -/
theorem Fits.step (h : a.Fits s₀ s) (d : Deed) : (a.after d).Fits s₀ (s.step d).2 := by
  -- a set-up and a logger change the handlers, a call adds a record, a block changes the context
  cases d with
  | configure setup opens => exact h.setUp opens setup
  | obtain component fields level format =>
    have hEnsured := h.ensured level format
    have hOutcome := System.configured_ensure level format s.system
    rcases hEnsure : s.system.ensure level format with ⟨fault | _, system⟩
    · -- a refused set-up leaves no logger behind
      rw [hEnsure] at hEnsured hOutcome
      have hNone : (a.ensured level format).handlers = [] := by
        refine Decidable.not_not.mp fun hSome => ?_
        rw [hEnsured.configured.mpr hSome] at hOutcome
        cases hOutcome
      have hStep : (s.step (.obtain component fields level format)).2 = { s with system } := by
        simp only [Session.step, hEnsure]
      simp only [after, if_pos hNone, hStep]
      exact hEnsured
    · rw [hEnsure] at hEnsured hOutcome
      have hSome : (a.ensured level format).handlers ≠ [] := hEnsured.configured.mp hOutcome
      have hStep : (s.step (.obtain component fields level format)).2 =
          { system, loggers := s.loggers ++ [.of component fields.members] } := by
        simp only [Session.step, hEnsure]
      simp only [after, if_neg hSome, hStep]
      exact hEnsured.obtain hSome (.of component fields.members)
  | log logger m reports level name fields => exact h.log logger m reports level name fields
  | enter x =>
    exact ⟨h.configured, h.inForce, h.untouched, h.loggers, congrArg (·.enter x) h.context,
      h.console, h.files⟩
  | leave =>
    exact ⟨h.configured, h.inForce, h.untouched, h.loggers, congrArg (·.leave) h.context,
      h.console, h.files⟩

/-! ## All deeds -/

/-- However many deeds there are. -/
theorem Fits.run (h : a.Fits s₀ s) (deeds : List Deed) :
    (deeds.foldl after a).Fits s₀ (s.run deeds) := by
  induction deeds generalizing a s with
  | nil => exact h
  | cons d deeds ih => exact ih (h.step d)

theorem setUp_records (asked : Except SetupFault Handler) (a : Account) :
    (a.setUp asked).records = a.records := by
  cases asked <;> rfl

theorem ensured_records (a : Account) (level format : Option Text) :
    (a.ensured level format).records = a.records := by
  unfold ensured
  split
  · exact setUp_records _ a
  · rfl

/-- A deed takes no record away. -/
theorem records_after (a : Account) (d : Deed) : a.records <+: (a.after d).records := by
  unfold after
  split
  · split
    · simp only [setUp_records, List.prefix_refl]
    · exact List.prefix_refl _
  · dsimp only
    split <;> simp only [ensured_records, List.prefix_refl]
  · exact List.prefix_append _ _
  · exact List.prefix_refl _
  · exact List.prefix_refl _

theorem records_foldl (a : Account) (deeds : List Deed) :
    a.records <+: (deeds.foldl after a).records := by
  induction deeds generalizing a with
  | nil => exact List.prefix_refl _
  | cons d deeds ih => exact (a.records_after d).trans (ih (a.after d))

theorem written_prefix {b : Account} (h : a.records <+: b.records) (d : Destination) :
    a.written d <+: b.written d := by
  obtain ⟨more, hMore⟩ := h
  refine ⟨Text.lines ((more.filter fun r => r.destination = d).map Record.line), ?_⟩
  rw [written, written, ← hMore, List.filter_append, List.map_append]
  exact List.flatMap_append.symm

end Account

/-! ## Sessions -/

/-- A set-up that is refused moves nothing. -/
theorem System.unmoved_of_refused {opens : Text → Bool} {setup : Setup} {s : System}
    {fault : SetupFault} (h : (s.setUp opens setup).1 = .error fault) :
    s.Unmoved (s.setUp opens setup).2 := by
  rcases setUp_cases opens setup s with ⟨-, hRun⟩ | ⟨-, _, -, -, hUnmoved⟩ | ⟨-, _, -, hRun⟩
  · rw [hRun] at h
    cases h
  · exact hUnmoved
  · rw [hRun] at h
    cases h

namespace Account

variable {s₀ : System} {a : Account} {s : Session}

/-- What a call that logs does to a session: it adds one line to what the handler in force has
written, or it changes nothing. -/
theorem Fits.step_log (hFits : a.Fits s₀ s) {logger : Nat} {l : Logger}
    (hLogger : s.loggers[logger]? = some l) {h : Handler} (hLast : a.handlers.getLast? = some h)
    (m : Moment) (reports : Bool) (level : Level) (name : Text) (fields : Fields logParameters) :
    let e := l.event level name fields.members
    let after := (s.step (.log logger m reports level name fields)).2
    (h.Writes m s.system.context e →
      ∃ line, (e.within s.system.context).line? h.format m = .ok line ∧
        after = { s with system := s.system.put h.destination (line ++ "\n") }) ∧
    (¬ h.Writes m s.system.context e → after = s) := by
  intro e after
  obtain ⟨hInForce, hThreshold⟩ := hFits.inForce h hLast
  have hAfter : after = { s with system := (s.system.log reports m e).2 } := by
    simp only [after, e, Session.step, hLogger]
  rw [Handler.writes_iff, hAfter]
  rcases System.log_cases hInForce hThreshold reports m e with
    ⟨r, hRecord, hLog⟩ | ⟨hNone, outcome, hLog⟩
  · rw [hLog]
    refine ⟨fun _ => ⟨r.line, ?_, ?_⟩, fun hNot => absurd ⟨r, hRecord⟩ hNot⟩
    · exact (Handler.line?_of_recordOf? hRecord)
    · rw [System.record, ← (Handler.takes_of_recordOf? hRecord).1]
  · rw [hLog]
    refine ⟨fun ⟨r, hRecord⟩ => ?_, fun _ => rfl⟩
    rw [hNone] at hRecord
    cases hRecord

/-- A deed that fails moves nothing, be it a set-up or a call that logs. -/
theorem Fits.unmoved_of_error (hFits : a.Fits s₀ s) {d : Deed} {fault : DeedFault}
    (h : (s.step d).1 = .error fault) :
    s.system.Unmoved (s.step d).2.system ∧ (s.step d).2.loggers = s.loggers := by
  cases d with
  | configure setup opens =>
    refine ⟨?_, rfl⟩
    change (s.system.setUp opens setup).1.mapError .setUp = .error fault at h
    cases hRefused : (s.system.setUp opens setup).1 with
    | error fault' => exact System.unmoved_of_refused hRefused
    | ok _ =>
      rw [hRefused] at h
      cases h
  | obtain component fields level format =>
    -- the environment is refused like any other set-up
    have hSetUp := System.setUp_environment level format s.system
    rcases hEnsure : s.system.ensure level format with ⟨fault' | _, system⟩
    · rw [hEnsure] at hSetUp
      have hRefused : (s.system.setUp (fun _ => true) (System.environmentSetup level format)).1 =
          .error (.threshold fault') := congrArg Prod.fst hSetUp
      have hUnmoved := System.unmoved_of_refused hRefused
      rw [hSetUp] at hUnmoved
      simp only [Session.step, hEnsure, and_true]
      exact hUnmoved
    · simp [Session.step, hEnsure] at h
  | log logger m reports level name fields =>
    cases hLogger : s.loggers[logger]? with
    | none => simp [Session.step, hLogger] at h
    | some l =>
      obtain ⟨handler, -, hInForce, hThreshold⟩ := hFits.exists_handler hLogger
      rcases System.log_cases hInForce hThreshold reports m (l.event level name fields.members) with
        ⟨r, -, hLog⟩ | ⟨-, outcome, hLog⟩
      · simp [Session.step, hLogger, hLog, Except.mapError] at h
      · simp only [Session.step, hLogger, hLog, and_true]
        exact .refl _
  | enter x => cases h
  | leave => cases h

end Account

/-- **The log over a whole session**, from before any set-up and whatever is done. The session is
what its account says: the handler of the last set-up that took effect is the only one and gives the
level, a set-up took effect exactly when it was the first that was not refused or insisted, and
what was written is the records, each in its place after what was there. Beyond that:

* a deed that fails, be it a set-up or a call that logs, moves nothing;
* a set-up that is not refused has the level of its name, and the level of information when nothing
  has that name;
* a call that logs adds exactly one line at the destination of the handler in force when it is
  written (`Handler.Writes`), and otherwise changes nothing;
* nothing that was written to a file is lost later on. -/
theorem run_accounts (s₀ : System) (h : s₀.configured = false) (deeds : List Deed) :
    let s := Session.run ⟨s₀, []⟩ deeds
    let a := Account.of s₀.context deeds
    a.Fits s₀ s ∧
    (∀ d fault, (s.step d).1 = .error fault →
      s.system.Unmoved (s.step d).2.system ∧ (s.step d).2.loggers = s.loggers) ∧
    (∀ (opens : Text → Bool) (setup : Setup),
      (∀ path, setup.file = some path → opens path = true) →
      Threshold.takenNames.lookup setup.level.upper = none →
      setup.handler? opens = .ok ⟨setup.destination,
        (Threshold.names.lookup setup.level.upper).getD Level.info.number,
        Format.ofName setup.format⟩) ∧
    (∀ logger l, s.loggers[logger]? = some l → ∃ h, a.handlers.getLast? = some h ∧
      ∀ m reports level name (fields : Fields logParameters),
        let e := l.event level name fields.members
        let after := (s.step (.log logger m reports level name fields)).2
        (h.Writes m s.system.context e →
          ∃ line, (e.within s.system.context).line? h.format m = .ok line ∧
            after = { s with system := s.system.put h.destination (line ++ "\n") }) ∧
        (¬ h.Writes m s.system.context e → after = s)) ∧
    (∀ more path, (s.system.contents? path).getD [] <+:
      (((s.run more).system.contents? path)).getD []) := by
  intro s a
  -- all of it is read off the account, which fits the session after any deeds
  have hFits : a.Fits s₀ s := (Account.start_fits h).run deeds
  refine ⟨hFits, fun d fault => hFits.unmoved_of_error, fun opens setup => setup.handler?_eq,
    fun logger l hLogger => ?_, fun more path => ?_⟩
  · obtain ⟨handler, hLast, -⟩ := hFits.exists_handler hLogger
    exact ⟨handler, hLast, hFits.step_log hLogger hLast⟩
  · rw [hFits.files, (hFits.run more).files]
    exact List.prefix_append_right_inj _ |>.mpr
      (Account.written_prefix (Account.records_foldl _ more) _)

/-- A logger comes with a set-up from the environment; a file for warnings that does not insist is
passed over, and one that does takes its place, for the logger that is there already. What the
encoding of the file does not have is lost, and nothing else is. -/
theorem run_accounts_replaced :
    System.initial.configured = false ∧
      let setup : Setup := { level := "Warning", file := some "log" }
      let deeds : List Deed :=
        [.obtain "client" .none none (some "json"), .configure setup fun _ => true,
          .log 0 { timestamp := "0", arrangement := .asMade } true .info "before" .none,
          .configure { setup with insist := true } fun _ => true,
          .log 0 "1" true .info "quiet" .none, .log 0 "2" true .error [.surrogate 0] .none,
          .log 0 "3" true .error "after" .none]
      let s := Session.run ⟨.initial, []⟩ deeds
      s.system.handlers = [⟨.file "log", 30, .console⟩] ∧ s.system.threshold = 30 ∧
        (s.system.contents? "log").getD [] = Text.lines
          ["3 [error    ] after                          [artmon] component=client"] := by
  refine ⟨rfl, ?_⟩
  intro setup deeds s
  -- the account of the seven deeds says which handler is in force and what its file holds
  have hFits : (Account.of [] deeds).Fits .initial s := (run_accounts .initial rfl deeds).1
  obtain ⟨hHandlers, hThreshold⟩ := hFits.inForce ⟨.file "log", 30, .console⟩ (by decide +kernel)
  refine ⟨hHandlers, hThreshold, (hFits.files "log").trans ?_⟩
  decide +kernel

/-- An event whose name holds half of a surrogate pair reaches the level of the one handler there
is, and no record of it is written: neither to a file nor on a console that is encoded the same. -/
theorem not_written_of_half :
    let s (setup : Setup) := Session.run ⟨.initial, []⟩
      [.configure setup fun _ => true, .obtain "client" .none none none]
    let m : Moment := { timestamp := "0", console := .utf8 }
    let after (setup : Setup) := ((s setup).step (.log 0 m true .info [.surrogate 0] .none)).2
    (∀ setup ∈ [{ file := some "log" }, ({} : Setup)],
      (s setup).system.handlers = [⟨setup.destination, 20, .console⟩] ∧
      (s setup).system.threshold = 20 ∧ (s setup).loggers.length = 1 ∧
      20 ≤ Level.info.number ∧ ((after setup).system.contents? "log").getD [] = [] ∧
      (after setup).system.console = []) := by
  decide +kernel

end OscMonitor.Log
