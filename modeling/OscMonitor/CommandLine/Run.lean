import OscMonitor.CommandLine.Arguments
import OscMonitor.CommandLine.Help
import OscMonitor.Exchange.Basic
import OscMonitor.Log.System
import OscMonitor.Network.Run
import OscMonitor.Report.Listing

/-!
# Running the command

What the command does with its options: one exchange, whose report is listed in the log. The
status is zero exactly when there is a report.

* `converse` is the dialogue of the command, `setup` how it logs.
* `invoke` is the whole command on a given network: its status, what it writes, and its calls.
-/

namespace OscMonitor.CommandLine

inductive Ending where
  -- With a report.
  | passed
  -- With a failure that is logged.
  | failed
  -- Without a port; help follows.
  | portMissing
  -- With a fault of a call that no stage of the exchange expects.
  | interrupted (fault : Fault)
  deriving Repr

/-- What the command logs in its own name. -/
def event (level : Log.Level) (text : Text) (fields : Object) : Log.Event :=
  (Log.Logger.of "cli" []).event level text fields

/-- The text unless it is empty. -/
def nonempty? (t : Option Text) : Option Text := t.filter fun t => !t.isEmpty

/-- The port to connect to: the option, else the setting; an empty one is none. -/
def portOf (s : Settings) (o : Options) : Option Text :=
  (nonempty? o.port).or (nonempty? s.port)

/-- How the command logs: as its options say, else as the settings do. -/
def setup (s : Settings) (o : Options) : Log.Setup where
  level := o.logLevel.getD s.logLevel
  format := (o.logFormat.getD s.logFormat).name
  insist := true

/-- What is logged of a report: the document if that is asked for, and the listing. -/
def reportTexts (s : Settings) (o : Options) (r : Report) : List Text :=
  (if o.raw || s.debug then [(Value.object r.raw).spaced] else []) ++ r.lines

def conclude (s : Settings) (o : Options) (result : Except ExchangeFault Report) :
    Dialogue Ending :=
  match result with
  | .ok report => do
    Dialogue.sayAll ((reportTexts s o report ++ [("PASSED !" : Text)]).map (event .info · []))
    return .passed
  | .error fault =>
    match fault, fault.failure? with
    | _, some failure => do
      Dialogue.say (event .error failure.text [("error", .object failure.toObject)])
      Dialogue.say (event .error "FAIL" [])
      return .failed
    | .interrupted fault, none => return .interrupted fault
    | _, none => return .failed

/-- The dialogue of the command. -/
def converse (s : Settings) (o : Options) : Dialogue Ending := do
  match portOf s o with
  | none =>
    Dialogue.say (event .error "Bad port" [])
    return .portMissing
  | some port =>
    Dialogue.sayAll (o.action.toList.map fun a =>
      event .info ("Action requested: " ++ a.name) [])
    let result ← exchange s (o.address.or s.host) (.name port) (o.action.getD .status)
      (o.timeout.map .real) none
    conclude s o result

/-- How an invocation comes out. -/
inductive Outcome where
  -- The command did its work and leaves a status.
  | status (n : Nat)
  -- It stopped at its arguments: after help, or because of a fault.
  | stopped (n : Nat)
  -- Something ended in a fault that nothing handles: a call, or help that the output does not take.
  | interrupted (fault : Fault)
  -- The log could not be set up.
  | notLogging (fault : Log.ThresholdFault)
  -- The help could not be written.
  | helpless (fault : TemplateFault)
  deriving Repr

/-- All that an invocation does. -/
structure Invocation where
  outcome : Outcome
  -- What is written to the standard output.
  output : Text
  -- What is written to the standard error, reports of events that the log lost left out.
  errors : Text
  steps : List Step

/-- Writes events to the console under a set-up. -/
def logged (setup : Log.Setup) (m : Log.Moment) (events : List Log.Event) :
    Except Log.ThresholdFault Text :=
  match Log.System.initial.configure setup with
  | (.error fault, _) => .error fault
  | (.ok (), system) => .ok (events.foldl (fun system e => system.write m e) system).console

/-- Why the output does not take a text, if it does not. Nothing of the text is written then. -/
def refusal? (output : Encoding) (text : Text) : Option Fault :=
  if output.takes text then none else some ⟨.encoding, none, output.complaint text⟩

/-- Ends with help after what was written before. -/
def withHelp (s : Settings) (console : Encoding) (outcome : Outcome) (output : Text)
    (steps : List Step) : Invocation :=
  match help s with
  | .error fault => ⟨.helpless fault, output, [], steps⟩
  | .ok text =>
    match refusal? console text with
    | some fault => ⟨.interrupted fault, output, [], steps⟩
    | none => ⟨outcome, output ++ text, [], steps⟩

def perform (s : Settings) (o : Options) (net : Network) (m : Log.Moment) : Invocation :=
  let run := (converse s o).run net 0 []
  match logged (setup s o) m run.events with
  | .error fault => ⟨.notLogging fault, [], [], []⟩
  | .ok output =>
    match run.result with
    | .passed => ⟨.status 0, output, [], run.steps⟩
    | .failed => ⟨.status 1, output, [], run.steps⟩
    | .portMissing => withHelp s m.console (.status 1) output run.steps
    | .interrupted fault => ⟨.interrupted fault, output, [], run.steps⟩

/-- The whole command on a network, all of whose events are logged at one moment. -/
def invoke (s : Settings) (arguments : List Text) (net : Network) (m : Log.Moment) : Invocation :=
  match read arguments with
  | .error fault => ⟨.stopped 2, [], complaint fault.message, []⟩
  | .ok .help => withHelp s m.console (.stopped 0) [] []
  | .ok (.exchange o) => perform s o net m

end OscMonitor.CommandLine
