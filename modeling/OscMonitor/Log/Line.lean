import OscMonitor.Document.Arrangement
import OscMonitor.Document.Limits
import OscMonitor.Document.Reader
import OscMonitor.Log.Event
import OscMonitor.Text.Encoding

/-!
# Written events

An event as a line of text: for the console, with its fields as `name=value` in the order of their
names, or as a JSON object. On the console the fields that tell how an event came about, `stack` and
`exception`, follow the line as blocks of their own; they have to be texts.

What a line says depends on the event and on the moment it is logged: the time, the calls under way
and the exception being handled, which an event may ask for. So does whether there is a line at all,
since writing values has its limits.

* `Moment` is all that a line depends on beside its event.
* `Event.line?` is the line of an event, or why there is none.
-/

namespace OscMonitor.Log

/-- How events are written. -/
inductive Format where
  | console
  | json
  deriving DecidableEq, Repr

/-- The format of a name; only one name stands for JSON. -/
def Format.ofName (name : Text) : Format :=
  if name = Text.ofString "json" then json else console

/-- The name of the log that all events belong to. -/
def logName : Text := "artmon"

/-- What is there when an event is logged. None of it is the log's own: the interpreter has room for
so many levels, the machine chose the encodings, and bound names come in no order of their own. -/
structure Moment where
  timestamp : Text
  -- The calls under way, as an event shows them that asks for them.
  calls : Text := []
  -- The exception that is being handled, as an event shows it that asks for it.
  exception : Option Text := none
  -- The levels that there is room for when values are written. A log call uses more itself.
  room : Nat := Reader.depthLimit
  enough : 3 ≤ room := by decide
  -- The encodings of the console and of files.
  console : Encoding := .unlimited
  files : Encoding := .utf8
  -- The order of members in JSON.
  arrangement : Arrangement := .byName

/-- A moment of which only the time matters. -/
instance : Coe Text Moment := ⟨fun timestamp => { timestamp }⟩

/-- Why there is no line of an event. -/
inductive LineFault where
  -- A value cannot be written.
  | value (fault : WriteFault)
  -- What should be a block is no text.
  | notText
  deriving DecidableEq, Repr

namespace Line

/-- Whether a value counts as a yes. -/
def isYes : Value → Bool
  | .null => false
  | .bool b => b
  | .int n => n ≠ 0
  | .float x => x ≠ .zero false && x ≠ .zero true
  | .text t => !t.isEmpty
  | .list items => !items.isEmpty
  | .object members => !members.isEmpty

/-- The names that are never written: two ask how an event came about, and two belong to the log. -/
def hiddenNames : List Text := ["exc_info", "stack_info", "_record", "_from_structlog"]

/-- Gives an event the answer to a question of its, if it asks that and there is an answer. -/
def answer (e : Event) (question place : Text) (text? : Option Text) (fields : Object) : Object :=
  match text? with
  | some t => if (e.fields.get? question).any isYes then fields.insert place (.text t) else fields
  | none => fields

/-- The fields of an event with the answers to what it asks. -/
def answered (m : Moment) (e : Event) : Object :=
  answer e "exc_info" "exception" m.exception
    (answer e "stack_info" "stack" (some m.calls)
      (e.fields.filter fun (name, _) => !hiddenNames.contains name))

/-! ## On the console -/

/-- Whether a code point makes a text need quotes on the console. -/
def needsQuotes (p : CodePoint) : Bool :=
  [' ', '\t', '=', '\r', '\n', '"', '\''].any fun c => p == .scalar c

/-- A value on the console: a text stands bare when nothing in it needs quotes. -/
def consoleValue : Value → Text
  | .text t => if t.any needsQuotes then t.quoted else t
  | v => v.display

/-- The names that have places of their own on the console. -/
def consoleNames : List Text :=
  ["event", "level", "logger", "timestamp", "exception", "logger_name", "stack"]

/-- The fields that have no place of their own on the console, in order. -/
def consoleFields (fields : Object) : Object :=
  Object.sorted (fields.filter fun (name, _) => !consoleNames.contains name)

/-- What stands between brackets on the console. -/
def bracketed (t : Text) : Text := " [" ++ t ++ "]"

/-- The name that a field gives to the log, beside its own. -/
def furtherName (fields : Object) : Text :=
  match fields.get? "logger_name" with
  | some (.text t) => bracketed t
  | some v => bracketed v.display
  | none => []

/-- The line of an event with so many fields on the console, without the blocks that follow it. -/
def consoleLine (m : Moment) (e : Event) (fields : Object) : Text :=
  let start : Text :=
    m.timestamp ++ bracketed (e.level.name.padRight 9) ++ " " ++ e.name.padRight 30 ++
      bracketed logName ++ furtherName fields
  Text.trimEnd (· == .scalar ' ')
    (start ++ (consoleFields fields).flatMap fun (name, v) => " " ++ name ++ "=" ++ consoleValue v)

/-- The values that are shown on the console, one after the other. -/
def shownValues (fields : Object) : List Value :=
  (fields.get? "logger_name").toList ++ (consoleFields fields).map Prod.snd

/-- The text of a block, if there is one; only a text can be. -/
def block? (fields : Object) (name : Text) : Except LineFault (Option Text) :=
  match fields.get? name with
  | none | some .null => .ok none
  | some (.text t) => .ok (some t)
  | some _ => .error .notText

/-- The blocks that follow a line, with a rule between them. -/
def blocks : Option Text → Option Text → Text
  | none, none => []
  | some stack, none => "\n" ++ stack
  | none, some exception => "\n" ++ exception
  | some stack, some exception =>
    "\n" ++ stack ++ "\n\n" ++ List.replicate 79 (.scalar '=') ++ "\n\n" ++ exception

/-- What is written of an event on the console, or the first fault on the way. -/
def console? (m : Moment) (e : Event) : Except LineFault Text := do
  let fields := answered m e
  (shownValues fields).forM fun v => (v.checkShown m.room).mapError .value
  let stack ← block? fields "stack"
  let exception ← block? fields "exception"
  return consoleLine m e fields ++ blocks stack exception

/-! ## As JSON -/

/-- The object that stands for an event. What every line has takes the place of fields of the same
names. -/
def entry (m : Moment) (e : Event) : Object :=
  (((Keyed.insert "event" (.text e.name) (answered m e)).insert "timestamp"
    (.text m.timestamp)).insert "level" (.text e.level.name)).insert "logger" (.text logName)

/-- The object of an event with its members in the order in which they are written. -/
def document (m : Moment) (e : Event) : Value := (Value.object (entry m e)).arranged m.arrangement

def json (m : Moment) (e : Event) : Text := (document m e).spaced

def json? (m : Moment) (e : Event) : Except LineFault Text :=
  ((document m e).print? .spaced m.room).mapError .value

end Line

/-- An event as a line, without the line end, or why there is none. -/
def Event.line? (format : Format) (m : Moment) (e : Event) : Except LineFault Text :=
  match format with
  | .console => Line.console? m e
  | .json => Line.json? m e

end OscMonitor.Log
