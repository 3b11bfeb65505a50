import OscMonitor.Log.Line

/-!
# The log system

Where events go. The system starts without a set-up; the first set-up counts, and later ones only
when they insist. A set-up puts one handler in the place of those that are there, and from then on
every event that reaches the threshold is written by it, with what is bound at the time. What is in
a file stays: a set-up that names the file again adds to it.

A handler can fail to write an event: there is no line of it, or the stream cannot encode the line.
Then the event is lost, which is reported, and the program goes on; only when the levels for values
run out the call that logs fails. Streams that fail for other reasons, such as a full disk, are left
out.

* `System.configure` sets the system up, `System.ensure` does so from the environment when nothing
  else has, and `System.setUp` takes account of files that cannot be opened.
* `Handler.text?` is what a handler writes of an event, or why the event is lost.
* `System.log` logs an event, and `System.write` is the system after that.
-/

namespace OscMonitor.Log

/-- Where events go. -/
inductive Destination where
  | nowhere
  | console
  | file (path : Text)
  deriving DecidableEq, Repr

/-- What a set-up asks for. -/
structure Setup where
  level : Text := "INFO"
  format : Text := "console"
  file : Option Text := none
  -- Keep events off the console. This also insists.
  silent : Bool := false
  -- Replace a set-up that is already there.
  insist : Bool := false

namespace Setup

/-- The destination that a set-up asks for: a file before silence, and silence before the
console. -/
def destination (s : Setup) : Destination :=
  match s.file with
  | some path => .file path
  | none => if s.silent then .nowhere else .console

/-- Whether a set-up replaces another. -/
def insists (s : Setup) : Bool := s.insist || s.silent

end Setup

/-- Whether the stream at a destination can encode a text. Nowhere is no stream. -/
def Destination.takes (m : Moment) (d : Destination) (text : Text) : Bool :=
  match d with
  | .nowhere => false
  | .console => m.console.takes text
  | .file _ => m.files.takes text

/-- Why a set-up is refused. -/
inductive SetupFault where
  -- Its file cannot be opened.
  | file (path : Text)
  -- Its threshold is none.
  | threshold (fault : ThresholdFault)
  deriving DecidableEq, Repr

/-- What takes events: where it writes them, from which level on, and how. -/
structure Handler where
  destination : Destination
  threshold : Nat
  format : Format
  deriving DecidableEq, Repr

/-- Why an event is lost. -/
inductive Loss where
  | line (fault : LineFault)
  -- The stream has no bytes for something in the line.
  | encoding
  deriving DecidableEq, Repr

/-- What a handler writes of an event: its line and a line end, all at once. -/
def Handler.text? (m : Moment) (e : Event) (h : Handler) : Except Loss Text := do
  let line ← (e.line? h.format m).mapError .line
  let text := line ++ "\n"
  if h.destination.takes m text then .ok text else .error .encoding

/-- Why a call that logs fails. -/
inductive CallFault where
  -- The log takes a field of the event for a record of its own, and it is none.
  | notRecord
  -- The levels for values run out.
  | tooDeep
  -- The loss of the event cannot be reported.
  | unreported
  deriving DecidableEq, Repr

/-- What a loss comes to for the call that logs, where losses can be reported or not. -/
def Loss.outcome (reports : Bool) : Loss → Except CallFault Unit
  | .line (.value .tooDeep) => .error .tooDeep
  | _ => if reports then .ok () else .error .unreported

/-- The state of the log system and all that it has written. -/
structure System where
  -- Whether a set-up has taken effect.
  configured : Bool
  -- The level from which on events are passed to the handlers.
  threshold : Nat
  handlers : List Handler
  context : Context
  -- What has been written to the console.
  console : Text
  -- The files with what has been written to them.
  files : Keyed Text

namespace System

/-- The system before any set-up. -/
def initial : System := ⟨false, Threshold.standard, [], [], [], []⟩

/-- Where the first handler writes events. -/
def destination (s : System) : Destination :=
  match s.handlers with
  | h :: _ => h.destination
  | [] => .nowhere

/-- What has been written to a file, if there is one. -/
def contents? (s : System) (path : Text) : Option Text := s.files.get? path

/-- Adds to a file, which comes into being if there is none. -/
def append (path text : Text) (files : Keyed Text) : Keyed Text :=
  files.insert path ((files.get? path).getD [] ++ text)

theorem get?_append_self (path text : Text) (files : Keyed Text) :
    (append path text files).get? path = some ((files.get? path).getD [] ++ text) := by
  simp [append]

theorem get?_append_of_ne {path other : Text} (text : Text) (files : Keyed Text)
    (h : other ≠ path) : (append path text files).get? other = files.get? other :=
  Keyed.get?_insert_of_ne files _ h

/-- Opens the file that a set-up asks for. -/
def touch (setup : Setup) (s : System) : System :=
  match setup.file with
  | some path => { s with files := append path [] s.files }
  | none => s

/-- Whether a set-up takes effect. -/
def accepts (s : System) (setup : Setup) : Bool := !s.configured || setup.insists

/-- Sets the system up, unless it is and the new set-up does not insist. The handler of the set-up
takes the place of all that are there. A set-up whose threshold is none changes nothing but that its
file is there. -/
def configure (setup : Setup) (s : System) : Except ThresholdFault Unit × System :=
  if s.accepts setup then
    match Threshold.ofName setup.level with
    | .error fault => (.error fault, s.touch setup)
    | .ok threshold =>
      (.ok (),
        { s.touch setup with
          configured := true
          threshold
          handlers := [⟨setup.destination, threshold, Format.ofName setup.format⟩] })
  else (.ok (), s)

/-- Sets the system up where not every file can be opened. A file that cannot be opened is found out
before anything changes. -/
def setUp (opens : Text → Bool) (setup : Setup) (s : System) : Except SetupFault Unit × System :=
  match setup.file.filter fun path => !opens path with
  | some path => if s.accepts setup then (.error (.file path), s) else (.ok (), s)
  | none => ((s.configure setup).1.mapError .threshold, (s.configure setup).2)

/-- The set-up that the environment asks for. -/
def environmentSetup (level format : Option Text) : Setup where
  level := level.getD "INFO"
  format := format.getD "console"

/-- Sets the system up from the environment, unless it is set up. -/
def ensure (level format : Option Text) (s : System) : Except ThresholdFault Unit × System :=
  if s.configured then (.ok (), s) else s.configure (environmentSetup level format)

/-- Binds an exchange. -/
def enter (x : Exchange) (s : System) : System := { s with context := s.context.enter x }

/-- Unbinds the names of an exchange. -/
def leave (s : System) : System := { s with context := s.context.leave }

/-- Puts a text where events go. -/
def put (destination : Destination) (text : Text) (s : System) : System :=
  match destination with
  | .nowhere => s
  | .console => { s with console := s.console ++ text }
  | .file path => { s with files := append path text s.files }

section Logging

variable (reports : Bool) (m : Moment) (e : Event)

/-- Has a handler write an event that reaches its threshold. A handler that writes nowhere does not
even make a line of it. -/
def handle (s : System) (h : Handler) : Except CallFault Unit × System :=
  if h.destination ≠ .nowhere ∧ e.reaches h.threshold then
    match h.text? m e with
    | .ok text => (.ok (), s.put h.destination text)
    | .error loss => (loss.outcome reports, s)
  else (.ok (), s)

/-- Has the handlers write an event one after the other, until the call fails. -/
def handleAll : List Handler → System → Except CallFault Unit × System
  | [], s => (.ok (), s)
  | h :: rest, s =>
    match handle reports m e s h with
    | (.ok (), s) => handleAll rest s
    | failed => failed

/-- Logs an event that reaches the threshold, with what is bound, through every handler. -/
def log (s : System) : Except CallFault Unit × System :=
  if e.reaches s.threshold then
    if e.posesAsRecord then (.error .notRecord, s)
    else handleAll reports m (e.within s.context) s.handlers s
  else (.ok (), s)

/-- The system after an event was logged, where losses can be reported. -/
def write (s : System) : System := (log true m e s).2

end Logging

end System

end OscMonitor.Log
