import OscMonitor.Proofs.CommandLine.Help
import OscMonitor.Proofs.CommandLine.Options
import OscMonitor.Proofs.Exchange.CutOff
import OscMonitor.Proofs.Exchange.Written
import OscMonitor.Proofs.Log.Session
import OscMonitor.Proofs.Report.Lines

/-!
# What the command tells

The status of the command and the lines of its log say how the exchange ended, whatever the daemon
says. In JSON every line is an object of its own, and what the command logs in its own name can be
picked out of the events of the exchange: the action, then the report and that it passed, or the
failure and that it failed.

Two slips of the settings stand in the way, both in the level of the log: a level with the name of
something else leaves no log and no exchange, and a level with a percent sign no help.

* `told` is what the command has to tell of an exchange.
* `converse_run` — the run of the command is the run of the exchange between its own events.
* `invoke_tells` — the command tells what it has to, whatever its options for the log.
-/

namespace OscMonitor.CommandLine

/-! ## The log of the command -/

/-- What is logged is a line for every record of the handler that the set-up asks for. -/
theorem logged_eq (s : Settings) (o : Options) {threshold : Nat}
    (h : Log.Threshold.ofName (setup s o).level = .ok threshold) (m : Log.Moment)
    (events : List Log.Event) :
    logged (setup s o) m events =
      .ok (Text.lines (events.filterMap fun e =>
        (Log.Handler.recordOf? m [] e
          ⟨.console, threshold, .ofName (setup s o).format⟩).map Log.Record.line)) := by
  have hSetUp : Log.System.initial.configure (setup s o) =
      (.ok (), { Log.System.initial with
        configured := true
        threshold
        handlers := [⟨.console, threshold, .ofName (setup s o).format⟩] }) := by
    have hAccepts : Log.System.initial.accepts (setup s o) = true := rfl
    rw [Log.System.configure, if_pos hAccepts, h]
    rfl
  rw [logged, hSetUp]
  dsimp only
  rw [Log.System.console_foldl_write rfl rfl rfl rfl]
  rfl

/-- Without a threshold the command does not log, and does nothing else. -/
theorem perform_refused (s : Settings) (o : Options) {fault : Log.ThresholdFault}
    (h : Log.Threshold.ofName (setup s o).level = .error fault) (net : Network)
    (m : Log.Moment) : perform s o net m = ⟨.notLogging fault, [], [], []⟩ := by
  have hSetUp : Log.System.initial.configure (setup s o) =
      (.error fault, .initial) := by
    have hAccepts : Log.System.initial.accepts (setup s o) = true := rfl
    rw [Log.System.configure, if_pos hAccepts, h]
    rfl
  rw [perform, logged, hSetUp]

/-- In JSON every event that reaches the threshold is a line, whatever the output takes: there are
levels enough for events that can be written, and their lines are ASCII. -/
theorem logged_json (s : Settings) (o : Options) {threshold : Nat}
    (h : Log.Threshold.ofName (setup s o).level = .ok threshold)
    (hFormat : Log.Format.ofName (setup s o).format = .json) (m : Log.Moment)
    {components : List Text} {events : List Log.Event}
    (hEvents : ∀ e ∈ events, e.IsOf components) :
    logged (setup s o) m events =
      .ok (Text.lines ((events.filter (·.reaches threshold)).map (Log.Line.json m))) := by
  rw [logged_eq s o h, hFormat, ← List.filterMap_eq_filter, List.map_filterMap]
  congr 2
  refine List.filterMap_congr fun e he => ?_
  have hRenders : (e.within []).Renders m .json := by
    rw [Log.System.within_context_nil]
    exact Log.Line.renders_of_writable (hEvents e he).fields m
  have hSomewhere : Log.Destination.console ≠ .nowhere := by decide
  rw [Log.Handler.recordOf?_of_json rfl hSomewhere (hEvents e he).posesAsRecord_eq_false hRenders,
    Log.System.within_context_nil]
  cases hReaches : e.reaches threshold <;> simp [hReaches, Option.guard]

/-! ## The run of the command -/

/-- The exchange that the options ask for. -/
def asked (s : Settings) (o : Options) (port : Text) : Dialogue (Except ExchangeFault Report) :=
  exchange s (o.address.or s.host) (.name port) (o.action.getD .status) (o.timeout.map .real) none

/-- What the command says before the exchange: the action, if one is asked for. -/
def opening (o : Options) : List Text :=
  o.action.toList.map fun action => "Action requested: " ++ action.name

/-- The events of the command after the exchange. -/
def closing (s : Settings) (o : Options) : Except ExchangeFault Report → List Log.Event
  | .ok report => (reportTexts s o report ++ [("PASSED !" : Text)]).map (event .info · [])
  | .error fault =>
    match fault.failure? with
    | some failure =>
      [event .error failure.text [("error", .object failure.toObject)], event .error "FAIL" []]
    | none => []

/-- How the command ends after the exchange. -/
def Ending.after : Except ExchangeFault Report → Ending
  | .ok _ => .passed
  | .error (.interrupted fault) => .interrupted fault
  | .error _ => .failed

theorem conclude_run (s : Settings) (o : Options) (result : Except ExchangeFault Report)
    (net : Network) (sockets : Nat) (context : Log.Context) :
    (conclude s o result).run net sockets context =
      ⟨Ending.after result, sockets, context, [],
        (closing s o result).map (Log.Event.within context)⟩ := by
  cases result with
  | ok report =>
    rw [conclude, Dialogue.run_bind_eq, Dialogue.run_sayAll]
    simp [Run.followedBy, Ending.after, closing]
  | error fault => cases fault <;> rfl

/-- The run of the command is the run of the exchange between its own events. -/
theorem converse_run (s : Settings) (o : Options) {port : Text} (hPort : portOf s o = some port)
    (net : Network) :
    (converse s o).run net 0 [] =
      let run := (asked s o port).run net 0 []
      ⟨Ending.after run.result, run.sockets, run.context, run.steps,
        (opening o).map (event .info · []) ++ run.events ++
          (closing s o run.result).map (Log.Event.within run.context)⟩ := by
  have hOpening : (o.action.toList.map fun a =>
      event .info ("Action requested: " ++ a.name) []).map (Log.Event.within []) =
        (opening o).map (event .info · []) := by
    rw [opening, List.map_map, List.map_map]
    exact List.map_congr_left fun a _ => Log.System.within_context_nil _
  rw [converse, hPort]
  dsimp only
  rw [Dialogue.run_bind_eq, Dialogue.run_sayAll, hOpening, Dialogue.run_bind_eq, conclude_run]
  simp [Run.followedBy, asked]

theorem converse_run_none (s : Settings) (o : Options) (hPort : portOf s o = none)
    (net : Network) :
    (converse s o).run net 0 [] = ⟨.portMissing, 0, [], [], [event .error "Bad port" []]⟩ := by
  rw [converse, hPort]
  rfl

/-- What the command comes to after an ending. -/
def Ending.outcome (s : Settings) (console : Encoding) : Ending → Outcome
  | .passed => .status 0
  | .failed => .status 1
  | .portMissing => (withHelp s console (.status 1) [] []).outcome
  | .interrupted fault => .interrupted fault

theorem withHelp_outcome (s : Settings) (console : Encoding) (outcome : Outcome) (output : Text)
    (steps : List Step) :
    (withHelp s console outcome output steps).outcome =
        (withHelp s console outcome [] []).outcome ∧
      (withHelp s console outcome output steps).steps = steps := by
  unfold withHelp
  cases help s with
  | error fault => exact ⟨rfl, rfl⟩
  | ok text =>
    dsimp only
    cases refusal? console text <;> exact ⟨rfl, rfl⟩

/-- The command ends with its help as it should exactly when there is help and the output takes
it. -/
theorem withHelp_outcome_eq_status_iff {s : Settings} {console : Encoding} {n : Nat} {output : Text}
    {steps : List Step} :
    (withHelp s console (.status n) output steps).outcome = .status n ↔
      ∃ text, help s = .ok text ∧ console.takes text = true := by
  unfold withHelp
  cases help s with
  | error fault => exact ⟨nofun, fun ⟨_, hText, _⟩ => nomatch hText⟩
  | ok text =>
    have hOnly : (∃ t, Except.ok (ε := TemplateFault) text = .ok t ∧ console.takes t = true) ↔
        console.takes text = true :=
      ⟨fun ⟨_, hText, hTakes⟩ => Except.ok.inj hText ▸ hTakes, fun hTakes => ⟨text, rfl, hTakes⟩⟩
    rw [hOnly]
    dsimp only [refusal?]
    cases console.takes text with
    | true => exact ⟨fun _ => rfl, fun _ => rfl⟩
    | false => exact ⟨nofun, nofun⟩

/-- With a log the command comes to what its ending comes to, and makes the calls of its run. -/
theorem perform_outcome (s : Settings) (o : Options) {threshold : Nat}
    (h : Log.Threshold.ofName (setup s o).level = .ok threshold) (net : Network)
    (m : Log.Moment) :
    (perform s o net m).outcome =
        Ending.outcome s m.console ((converse s o).run net 0 []).result ∧
      (perform s o net m).steps = ((converse s o).run net 0 []).steps := by
  unfold perform
  dsimp only
  rw [logged_eq s o h]
  dsimp only
  cases ((converse s o).run net 0 []).result with
  | passed => exact ⟨rfl, rfl⟩
  | failed => exact ⟨rfl, rfl⟩
  | portMissing => exact withHelp_outcome ..
  | interrupted fault => exact ⟨rfl, rfl⟩

/-- In JSON, a command with a port writes a line for every event that reaches the threshold. -/
theorem perform_output (s : Settings) (o : Options) {port : Text} (hPort : portOf s o = some port)
    {threshold : Nat} (h : Log.Threshold.ofName (setup s o).level = .ok threshold)
    (hFormat : Log.Format.ofName (setup s o).format = .json) (net : Network) (m : Log.Moment)
    {components : List Text}
    (hEvents : ∀ e ∈ ((converse s o).run net 0 []).events, e.IsOf components) :
    (perform s o net m).output =
      Text.lines ((((converse s o).run net 0 []).events.filter (·.reaches threshold)).map
        (Log.Line.json m)) := by
  -- with a port no help is printed, so that the console holds the log and nothing else
  have hEnding : ((converse s o).run net 0 []).result ≠ .portMissing := by
    rw [converse_run s o hPort]
    show Ending.after _ ≠ .portMissing
    cases ((asked s o port).run net 0 []).result with
    | ok report => exact nofun
    | error fault => cases fault <;> exact nofun
  unfold perform
  dsimp only
  rw [logged_json s o h hFormat m hEvents]
  dsimp only
  cases hResult : ((converse s o).run net 0 []).result with
  | portMissing => exact absurd hResult hEnding
  | passed => rfl
  | failed => rfl
  | interrupted fault => rfl

/-! ## Events of the command -/

/-- An event that the command logs in its own name, in every log of information, and that can be
written. -/
structure IsOwn (e : Log.Event) : Prop where
  level : Log.Level.info.number ≤ e.level.number
  isOf : e.IsOf ["cli"]

theorem IsOwn.within {e : Log.Event} (h : IsOwn e) {context : Log.Context}
    (hContext : context.Fit) : IsOwn (e.within context) :=
  ⟨h.level, h.isOf.within hContext⟩

/-- What the command says is an event of its own. -/
theorem isOwn_event {level : Log.Level} (h : Log.Level.info.number ≤ level.number) (t : Text) :
    IsOwn (event level t []) where
  level := h
  isOf := .of_names (List.mem_singleton_self _) level t [] rfl (by decide) nofun

theorem isOwn_failure {failure : Failure} (h : failure.toObject.Writable 1) :
    IsOwn (event .error failure.text [("error", .object failure.toObject)]) where
  level := show Log.Level.info.number ≤ Log.Level.error.number by decide
  isOf := .of_names (List.mem_singleton_self _) .error failure.text ["error"] rfl (by decide)
    (List.forall_mem_singleton.mpr h.value)

section Shares

variable {before during after : List Log.Event} (hBefore : ∀ e ∈ before, IsOwn e)
  (hDuring : ∀ e ∈ during, e.IsOf Exchange.components) (hAfter : ∀ e ∈ after, IsOwn e)

include hBefore hDuring hAfter

/-- All that is logged while the command runs is logged by it or by the exchange. -/
theorem isOf_of_mem {e : Log.Event} (he : e ∈ before ++ during ++ after) :
    e.IsOf ("cli" :: Exchange.components) := by
  have hOwn : ([Text.ofString "cli"] : List Text) ⊆ "cli" :: Exchange.components := by
    intro component hComponent
    exact List.mem_cons.mpr (.inl (List.mem_singleton.mp hComponent))
  rcases List.mem_append.mp he with he | he
  · rcases List.mem_append.mp he with he | he
    · exact (hBefore e he).isOf.mono hOwn
    · exact (hDuring e he).mono (List.subset_cons_self _ _)
  · exact (hAfter e he).isOf.mono hOwn

/-- The command finds its own events again among those of the exchange. -/
theorem filter_own {threshold : Nat} (hThreshold : threshold ≤ Log.Level.info.number) :
    ((before ++ during ++ after).filter (·.reaches threshold)).filter
        (fun e => Log.isBy "cli" e.fields) = before ++ after := by
  -- what the command says is never below the information level, and so the threshold keeps it all
  have hOwn : ∀ {events : List Log.Event}, (∀ e ∈ events, IsOwn e) →
      events.filter (fun e => Log.isBy "cli" e.fields && e.reaches threshold) = events := by
    intro events hEvents
    refine List.filter_eq_self.mpr fun e he => ?_
    have hReaches : e.reaches threshold = true :=
      decide_eq_true (hThreshold.trans (hEvents e he).level)
    rw [(hEvents e he).isOf.isBy, hReaches]
    rfl
  have hOther :
      during.filter (fun e => Log.isBy "cli" e.fields && e.reaches threshold) = [] := by
    refine List.filter_eq_nil_iff.mpr fun e he => ?_
    rw [(hDuring e he).isBy_eq_false (by decide)]
    exact Bool.false_ne_true
  rw [List.filter_filter, List.filter_append, List.filter_append, hOwn hBefore, hOther,
    hOwn hAfter, List.append_nil]

end Shares

/-! ## What the command tells -/

/-- What the command has to tell of an exchange, after its status: nothing of one that ends in a
fault that no stage expects. Halves of surrogate pairs that meet in the text of a failure are read
back as one code point. -/
def told (s : Settings) (o : Options) : Except ExchangeFault Report → Option (Nat × List Text)
  | .ok report =>
    some (0, (if o.raw || s.debug then [(Value.object report.raw).spaced] else []) ++
      report.lines ++ [("PASSED !" : Text)])
  | .error fault =>
    fault.failure?.map fun failure => (1, [failure.text.paired, "FAIL"])

/-- An exchange of which there is something to tell leaves the status. -/
theorem outcome_of_told {s : Settings} {o : Options} {result : Except ExchangeFault Report}
    {status : Nat} {texts : List Text} (h : told s o result = some (status, texts))
    (console : Encoding) :
    (Ending.after result).outcome s console = .status status := by
  cases result with
  | ok report =>
    obtain ⟨rfl, -⟩ := Prod.mk.inj (Option.some.inj h)
    rfl
  | error fault =>
    obtain ⟨failure, hFailure, hTold⟩ := Option.map_eq_some_iff.mp h
    obtain ⟨rfl, -⟩ := Prod.mk.inj hTold
    cases fault with
    | interrupted fault => cases hFailure
    | _ => rfl

theorem joined_opening (o : Options) : ∀ t ∈ opening o, t.Joined := by
  intro t ht
  obtain ⟨action, -, rfl⟩ := List.mem_map.mp ht
  cases action <;> decide

/-- What is logged of a report has no halves to put together. -/
theorem joined_reportTexts {s : Settings} {o : Options} {report : Report} {b : Bytes}
    (h : Report.ofReply (.bytes b) = .ok report) : ∀ t ∈ reportTexts s o report, t.Joined := by
  intro t ht
  rcases List.mem_append.mp ht with hRaw | hLine
  · split at hRaw
    · obtain rfl := List.mem_singleton.mp hRaw
      exact (Value.isVisible_spaced _).isAscii.joined
    · cases hRaw
  · exact Report.joined_of_mem_lines h hLine

/-- After the exchange the command says what there is to tell of it. -/
theorem closing_told {s : Settings} {o : Options} {result : Except ExchangeFault Report}
    (hEnds : Exchange.Ends (fun report => ∃ b, Report.ofReply (.bytes b) = .ok report) result)
    {status : Nat} {texts : List Text} (h : told s o result = some (status, texts)) :
    (closing s o result).map (fun e => e.name.paired) = texts ∧
      ∀ e ∈ closing s o result, IsOwn e := by
  cases result with
  | ok report =>
    obtain ⟨-, rfl⟩ := Prod.mk.inj (Option.some.inj h)
    obtain ⟨b, hReport⟩ := hEnds
    refine ⟨?_, List.forall_mem_map.mpr fun t _ => isOwn_event (Nat.le_refl _) t⟩
    -- no text of a report has halves of a character apart, so that the JSON log gives them back
    have hJoined : ∀ t ∈ reportTexts s o report ++ [("PASSED !" : Text)], t.paired = t := by
      intro t ht
      refine Text.paired_of_joined ?_
      rcases List.mem_append.mp ht with ht | ht
      · exact joined_reportTexts hReport t ht
      · obtain rfl := List.mem_singleton.mp ht
        decide
    rw [closing, List.map_map]
    exact (List.map_congr_left hJoined).trans (List.map_id _)
  | error fault =>
    obtain ⟨failure, hFailure, hTold⟩ := Option.map_eq_some_iff.mp h
    obtain ⟨-, rfl⟩ := Prod.mk.inj hTold
    have hWritable := ExchangeFault.writable_failure hEnds hFailure
    have hClosing : closing s o (.error fault) =
        [event .error failure.text [("error", .object failure.toObject)],
          event .error "FAIL" []] := by
      rw [closing, hFailure]
    rw [hClosing]
    refine ⟨rfl, List.forall_mem_cons.mpr ⟨isOwn_failure hWritable, ?_⟩⟩
    exact List.forall_mem_singleton.mpr (isOwn_event (by decide) _)

/-- In JSON, the lines of the command are entries, and those in its own name say what there is to
tell. -/
theorem entries_of_told {s : Settings} {o : Options} {port : Text} (hPort : portOf s o = some port)
    {net : Network} (hNet : net.Countable) {status : Nat} {texts : List Text}
    (hTold : told s o ((asked s o port).run net 0 []).result = some (status, texts))
    {threshold : Nat} (hThreshold : Log.Threshold.ofName (setup s o).level = .ok threshold)
    (hInfo : threshold ≤ Log.Level.info.number)
    (hFormat : Log.Format.ofName (setup s o).format = .json) (m : Log.Moment) :
    ∃ entries, Log.entries? (perform s o net m).output = some entries ∧
      Log.namesBy "cli" entries = (opening o ++ texts).map fun t => some (Value.text t) := by
  have hKeeps := Exchange.exchange_keeps hNet s (o.address.or s.host) (.name port)
    (o.action.getD .status) (o.timeout.map .real) none 0 [] .nil
  change ((asked s o port).run net 0 []).Keeps _ at hKeeps
  obtain ⟨hTexts, hClosing⟩ := closing_told hKeeps.result hTold
  -- the events of the command are its own wherever they stand
  have hBefore : ∀ e ∈ (opening o).map (event .info · []), IsOwn e :=
    List.forall_mem_map.mpr fun t _ => isOwn_event (Nat.le_refl _) t
  have hAfter : ∀ e ∈ (closing s o ((asked s o port).run net 0 []).result).map
      (Log.Event.within ((asked s o port).run net 0 []).context), IsOwn e :=
    List.forall_mem_map.mpr fun e he => (hClosing e he).within hKeeps.context
  have hRun := converse_run s o hPort net
  have hEvents : ∀ e ∈ ((converse s o).run net 0 []).events,
      e.IsOf ("cli" :: Exchange.components) := by
    rw [hRun]
    exact fun e he => isOf_of_mem hBefore hKeeps.events hAfter he
  have hJoined : ∀ component ∈ ("cli" :: Exchange.components : List Text), component.Joined := by
    decide
  obtain ⟨entries, hEntries, hNames⟩ := Log.entries?_lines m hJoined
    (fun e he => hEvents e (List.mem_of_mem_filter he)) "cli"
  refine ⟨entries, ?_, ?_⟩
  · rw [perform_output s o hPort hThreshold hFormat net m hEvents]
    exact hEntries
  · rw [hNames, hRun]
    dsimp only
    rw [filter_own hBefore hKeeps.events hAfter hInfo, List.map_append, List.map_append,
      List.map_map, List.map_map, ← hTexts, List.map_map]
    congr 1
    exact List.map_congr_left fun t ht =>
      congrArg (some ∘ Value.text) (Text.paired_of_joined (joined_opening o t ht))

/-- Options that ask for the same exchange: they differ only in what concerns the log. -/
structure Options.AsksSame (o o' : Options) : Prop where
  address : o'.address = o.address
  port : o'.port = o.port
  action : o'.action = o.action
  timeout : o'.timeout = o.timeout

/-- What concerns the log changes neither how the command ends nor its calls. -/
theorem Options.AsksSame.converse_run {s : Settings} {o o' : Options} (h : o.AsksSame o')
    (net : Network) :
    ((converse s o').run net 0 []).result = ((converse s o).run net 0 []).result ∧
      ((converse s o').run net 0 []).steps = ((converse s o).run net 0 []).steps := by
  have hSame : portOf s o' = portOf s o := by
    rw [portOf, portOf, h.port]
  cases hPort : portOf s o with
  | none =>
    rw [converse_run_none s o hPort, converse_run_none s o' (hSame.trans hPort)]
    exact ⟨rfl, rfl⟩
  | some port =>
    have hAsked : asked s o' port = asked s o port := by
      rw [asked, asked, h.address, h.action, h.timeout]
    rw [CommandLine.converse_run s o hPort, CommandLine.converse_run s o' (hSame.trans hPort),
      hAsked]
    exact ⟨rfl, rfl⟩

/-- **The command tells how the exchange ended.** Unless the level of the log is a name that
something else has:

* without a port the command fails without a call. It does so with the status of a failure exactly
  when there is help that the output takes: that is so when the level of the settings, put into its
  description, leaves a template that can be filled and an output that takes it, and so with every
  level that has no percent sign and that the output takes;
* with a port it makes the calls of one exchange, and its status and what it logs in its own name
  are what it has to tell of that exchange. In JSON, every line is an object;
* options that differ only in what concerns the log change neither the outcome nor the calls.

The moment stands for everything that the log finds when it is used, so all this holds for every
encoding of the output and every order of members. The numbers of the network are taken to be short
enough to be written. -/
theorem invoke_tells {s : Settings} {arguments : List Text} {o : Options}
    (hRead : read arguments = .ok (.exchange o)) (hLevel : LevelIsFree s o) (net : Network)
    (m : Log.Moment) :
    (portOf s o = none →
      (invoke s arguments net m).steps = [] ∧
        ((invoke s arguments net m).outcome = .status 1 ↔
          ∃ text, help s = .ok text ∧ m.console.takes text = true) ∧
        (∀ t, Help.levelDescription? s = .ok t → m.console.takes t = true →
          (invoke s arguments net m).outcome = .status 1) ∧
        (CodePoint.scalar '%' ∉ s.logLevel → m.console.takes s.logLevel = true →
          (invoke s arguments net m).outcome = .status 1)) ∧
    (∀ port status texts, portOf s o = some port →
      told s o ((asked s o port).run net 0 []).result = some (status, texts) →
        (invoke s arguments net m).outcome = .status status ∧
        (invoke s arguments net m).steps = ((asked s o port).run net 0 []).steps ∧
        ∀ threshold, Log.Threshold.ofName (setup s o).level = .ok threshold →
          threshold ≤ Log.Level.info.number →
          Log.Format.ofName (setup s o).format = .json → net.Countable →
            ∃ entries, Log.entries? (invoke s arguments net m).output = some entries ∧
              Log.namesBy "cli" entries =
                (opening o ++ texts).map fun t => some (Value.text t)) ∧
    ∀ arguments' o' m', read arguments' = .ok (.exchange o') → o.AsksSame o' →
      LevelIsFree s o' → m'.console = m.console →
        (invoke s arguments' net m').outcome = (invoke s arguments net m).outcome ∧
          (invoke s arguments' net m').steps = (invoke s arguments net m).steps := by
  have hInvoke : invoke s arguments net m = perform s o net m := by
    rw [invoke, hRead]
  obtain ⟨threshold, hThreshold⟩ := exists_threshold hLevel hRead
  obtain ⟨hOutcome, hSteps⟩ := perform_outcome s o hThreshold net m
  rw [hInvoke]
  refine ⟨fun hPort => ?_, fun port status texts hPort hTold => ?_,
    fun arguments' o' m' hRead' hDiffers hLevel' hConsole => ?_⟩
  · -- the ending is that of a missing port, and help follows
    have hRun := converse_run_none s o hPort net
    have hStatus : (perform s o net m).outcome = .status 1 ↔
        ∃ text, help s = .ok text ∧ m.console.takes text = true := by
      rw [hOutcome, hRun]
      exact withHelp_outcome_eq_status_iff
    refine ⟨by rw [hSteps, hRun], hStatus, fun t hFill hTakes => ?_, fun hPercent hTakes => ?_⟩
    · obtain ⟨text, hText⟩ := exists_help_iff.mpr ⟨t, hFill⟩
      refine hStatus.mpr ⟨text, hText, takes_help hText fun t' hFill' => ?_⟩
      obtain rfl := Except.ok.inj (hFill.symm.trans hFill')
      exact hTakes
    · exact hStatus.mpr (exists_help_of_plain hPercent hTakes)
  · have hRun := converse_run s o hPort net
    refine ⟨?_, ?_, fun threshold' hThreshold' hInfo hFormat hNet => ?_⟩
    · rw [hOutcome, hRun]
      exact outcome_of_told hTold m.console
    · rw [hSteps, hRun]
    · exact entries_of_told hPort hNet hTold hThreshold' hInfo hFormat m
  · -- both commands have a log, and their runs end alike
    have hInvoke' : invoke s arguments' net m' = perform s o' net m' := by
      rw [invoke, hRead']
    obtain ⟨threshold', hThreshold'⟩ := exists_threshold hLevel' hRead'
    obtain ⟨hOutcome', hSteps'⟩ := perform_outcome s o' hThreshold' net m'
    obtain ⟨hResult, hCalls⟩ := hDiffers.converse_run (s := s) net
    rw [hInvoke', hOutcome', hSteps', hOutcome, hSteps, hResult, hCalls, hConsole]
    exact ⟨rfl, rfl⟩

/-- An exchange on a network that delivers two brackets. -/
theorem asked_of_brackets {s : Settings} (hSize : s.bufferSize = 2048) (o : Options) (port : Text)
    {net : Network} (h : net.Delivers 0 [0x7B, 0x7D]) :
    ((asked s o port).run net 0 []).result = .ok (Report.ofDocument []) := by
  have hDocument : Reply.document (.bytes [0x7B, 0x7D]) = .ok [] := by cbv
  have hReport : Report.ofReply (.bytes [0x7B, 0x7D]) = .ok (Report.ofDocument []) :=
    Report.ofReply_eq_ok_iff.mpr ⟨[], hDocument, rfl⟩
  have hResult := (Exchange.exchange_of_delivers net 0 [] (o.address.or s.host)
    (o.timeout.map .real) (o.action.getD .status) 2048 s (.name port) none h hSize (by decide)).1
  exact hResult.trans (congrArg (Except.mapError ExchangeFault.undecodable) hReport)

/-- A request with a JSON log and the reply in it; the same request with the log of the settings;
and no port. -/
theorem invoke_tells_of_brackets :
    let request : List Text := ["-p", "2958", "-r", "gnss_stop"]
    let candidate : Endpoint := ⟨.v4 "192.0.2.1" 2958, Endpoint.stream, Endpoint.tcp⟩
    let net : Network := ⟨.ok [candidate], fun _ => { reply := [0x7B, 0x7D] }, .null⟩
    let invocation := invoke {} (request ++ (["--raw", "--log-format", "json"] : List Text)) net "0"
    invocation.outcome = .status 0 ∧
      (∃ entries, Log.entries? invocation.output = some entries ∧
        Log.namesBy "cli" entries =
          (["Action requested: gnss_stop", "\x7b\x7d", "PASSED !"] : List Text).map
            fun t => some (Value.text t)) ∧
      (invoke {} request net "1").outcome = .status 0 ∧
      (invoke {} [] net "0").outcome = .status 1 ∧ (invoke {} [] net "0").steps = [] := by
  intro request candidate net invocation
  let plain : Options := { port := some "2958", action := some .gnssStop }
  let json : Options := { plain with raw := true, logFormat := some .json }
  have hFree : ∀ o, LevelIsFree {} o := fun o _ => rfl
  have hJson : read (request ++ (["--raw", "--log-format", "json"] : List Text)) =
      .ok (.exchange json) := by cbv
  have hPlain : read request = .ok (.exchange plain) := by cbv
  have hNone : read [] = .ok (.exchange {}) := by cbv
  have hServes : (net.socket 0).Serves [0x7B, 0x7D] := ⟨rfl, rfl, rfl, rfl, rfl, rfl⟩
  have hDelivers : net.Delivers 0 [0x7B, 0x7D] :=
    ⟨[candidate], 0, rfl, Nat.one_pos, fun j hj => absurd hj (Nat.not_lt_zero j), hServes⟩
  have hTold : told {} json ((asked {} json "2958").run net 0 []).result =
      some (0, (["\x7b\x7d", "PASSED !"] : List Text)) := by
    rw [asked_of_brackets rfl json "2958" hDelivers]
    rfl
  have hNet : net.Countable := by
    refine ⟨?_, ?_, .null⟩
    · rintro endpoints ⟨rfl⟩
      exact show decimalLength 1 ≤ Numeral.digitLimit by decide
    · exact fun _ => show decimalLength 2 ≤ Numeral.digitLimit by decide
  -- the theorem with the JSON log; the plain one is another command that asks the same
  obtain ⟨-, hSome, hOthers⟩ := invoke_tells hJson (hFree json) net "0"
  obtain ⟨hOutcome, -, hEntries⟩ := hSome "2958" 0 _ rfl hTold
  obtain ⟨hSameOutcome, -⟩ :=
    hOthers request plain "1" hPlain ⟨rfl, rfl, rfl, rfl⟩ (hFree plain) rfl
  obtain ⟨hSteps, -, -, hHelped⟩ := (invoke_tells hNone (hFree {}) net "0").1 rfl
  have hStatus := hHelped (by decide) rfl
  exact ⟨hOutcome, hEntries 20 rfl (Nat.le_refl 20) rfl hNet, hSameOutcome.trans hOutcome, hStatus,
    hSteps⟩

/-- A level whose name something else has keeps the command from its exchange, and one with a
percent sign keeps it from its help. -/
theorem not_told_of_level :
    let candidate : Endpoint := ⟨.v4 "192.0.2.1" 2958, Endpoint.stream, Endpoint.tcp⟩
    let net : Network := ⟨.ok [candidate], fun _ => { reply := [0x7B, 0x7D] }, .null⟩
    let taken : Settings := { logLevel := "BASIC_FORMAT" }
    let percent : Settings := { logLevel := "50%" }
    let o : Options := { port := some "2958" }
    read ["-p", "2958"] = .ok (.exchange o) ∧
      told taken o ((asked taken o "2958").run net 0 []).result =
        some (0, (["PASSED !"] : List Text)) ∧
      (invoke taken ["-p", "2958"] net "0").outcome ≠ .status 0 ∧
      read [] = .ok (.exchange {}) ∧ portOf percent {} = none ∧
      (invoke percent [] net "0").outcome ≠ .status 1 := by
  intro candidate net taken percent o
  have hRead : read ["-p", "2958"] = .ok (.exchange o) := by cbv
  have hNone : read [] = .ok (.exchange {}) := by cbv
  have hServes : (net.socket 0).Serves [0x7B, 0x7D] := ⟨rfl, rfl, rfl, rfl, rfl, rfl⟩
  have hDelivers : net.Delivers 0 [0x7B, 0x7D] :=
    ⟨[candidate], 0, rfl, Nat.one_pos, fun j hj => absurd hj (Nat.not_lt_zero j), hServes⟩
  refine ⟨hRead, ?_, ?_, hNone, rfl, ?_⟩
  · rw [asked_of_brackets rfl o "2958" hDelivers]
    rfl
  · -- the name stands for something else in the logging module, so that it is no level
    have hTaken : Log.Threshold.ofName (setup taken o).level =
        .error (.text "%(levelname)s:%(name)s:%(message)s") := rfl
    rw [invoke, hRead]
    dsimp only
    rw [perform_refused taken o hTaken]
    intro hOutcome
    cases hOutcome
  · -- the description of the level cannot be filled
    have hFill : Help.levelDescription? percent = .error (.unknownLetter (.scalar ')') 27) := rfl
    have hThreshold : Log.Threshold.ofName (setup percent {}).level = .ok 20 := rfl
    rw [invoke, hNone]
    dsimp only
    rw [(perform_outcome percent {} hThreshold net "0").1, converse_run_none percent {} rfl]
    intro hOutcome
    obtain ⟨text, hText, -⟩ := withHelp_outcome_eq_status_iff.mp hOutcome
    obtain ⟨t, hFilled⟩ := exists_help_iff.mp ⟨text, hText⟩
    rw [hFill] at hFilled
    cases hFilled

end OscMonitor.CommandLine
