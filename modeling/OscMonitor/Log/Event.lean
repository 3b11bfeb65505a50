import OscMonitor.Document.Value
import OscMonitor.Text.UpperCase
import OscMonitor.Text.Quoted

/-!
# Log events

An event of the log: how severe it is, its name, and its fields. While an exchange is under way,
its host, port and request are bound, and every event that is written then carries them.

* `Threshold.ofName` reads the name of a threshold.
* `Context.enter` and `Context.leave` bind and unbind an exchange.
* `Event.within` adds what is bound to an event.
-/

namespace OscMonitor.Log

/-- How severe an event is. -/
inductive Level where
  | debug
  | info
  | warning
  | error
  | critical
  deriving DecidableEq, Repr

namespace Level

def name : Level → Text
  | debug => "debug"
  | info => "info"
  | warning => "warning"
  | error => "error"
  | critical => "critical"

/-- Levels as numbers: the more severe, the greater. -/
def number : Level → Nat
  | debug => 10
  | info => 20
  | warning => 30
  | error => 40
  | critical => 50

end Level

/-- Why a name is no threshold: it is taken by something else. -/
inductive ThresholdFault where
  -- A text has the name.
  | text (t : Text)
  -- A table has the name, which is shown so.
  | table (shown : Text)
  deriving DecidableEq, Repr

/-- The wording of a fault. -/
def ThresholdFault.message : ThresholdFault → Text
  | text t => "Unknown level: " ++ t.quoted
  | table shown => "Level not an integer or a valid string: " ++ shown

namespace Threshold

/-- The thresholds that have names. -/
def names : List (Text × Nat) :=
  [("CRITICAL", 50), ("FATAL", 50), ("ERROR", 40), ("WARNING", 30), ("WARN", 30), ("INFO", 20),
    ("DEBUG", 10), ("NOTSET", 0)]

/-- The threshold of an unknown name. -/
def standard : Nat := Level.info.number

/-- A style of messages as the table of styles shows it: its mark, its class, and its format. -/
def shownStyle (mark className format : Text) : Text :=
  mark.quoted ++ ": (<class 'logging." ++ className ++ "'>, " ++ format.quoted ++ ")"

/-- The table of the styles of messages. -/
def shownStyles : Text :=
  "\x7b" ++ Text.join ", "
    [shownStyle "%" "PercentStyle" "%(levelname)s:%(name)s:%(message)s",
      shownStyle "\x7b" "StrFormatStyle" "\x7blevelname\x7d:\x7bname\x7d:\x7bmessage\x7d",
      shownStyle "$" "StringTemplateStyle" "$\x7blevelname\x7d:$\x7bname\x7d:$\x7bmessage\x7d"] ++
    "\x7d"

/-- The names that something else has. -/
def takenNames : List (Text × ThresholdFault) :=
  [("BASIC_FORMAT", .text "%(levelname)s:%(name)s:%(message)s"), ("_STYLES", .table shownStyles)]

def ofUpperName (name : Text) : Except ThresholdFault Nat :=
  match takenNames.lookup name with
  | some fault => .error fault
  | none => .ok ((names.lookup name).getD standard)

/-- The threshold of a name, in any case. -/
def ofName (name : Text) : Except ThresholdFault Nat := ofUpperName name.upper

end Threshold

/-- What is bound: names with their values. -/
abbrev Context := Object

/-- The exchange that a log context is about. -/
structure Exchange where
  host : Text
  port : Text
  request : Text
  deriving DecidableEq, Repr

/-- The exchange with a host that may be missing; then it is the local host. -/
def Exchange.ofTarget (host : Option Text) (port request : Text) : Exchange :=
  ⟨host.getD "localhost", port, request⟩

namespace Context

/-- The names that an exchange binds. -/
def exchangeNames : List Text := ["host", "port", "request"]

/-- Binds an exchange. -/
def enter (x : Exchange) (c : Context) : Context :=
  ((Keyed.insert "host" (.text x.host) c).insert "port" (.text x.port)).insert "request"
    (.text x.request)

def leave (c : Context) : Context := c.filter fun (name, _) => !exchangeNames.contains name

end Context

/-- An event of the log. -/
structure Event where
  level : Level
  name : Text
  -- The fields, the component that logs among them.
  fields : Object
  deriving Repr

namespace Event

def of (component : Text) (level : Level) (name : Text) (fields : Object) : Event :=
  ⟨level, name, ("component", .text component) :: fields⟩

/-- The event with the bound names that it does not set itself. -/
def within (c : Context) (e : Event) : Event :=
  { e with fields := e.fields ++ c.filter fun (name, _) => !e.fields.has name }

/-- Whether an event has a field that the log takes for its own record, whose name it asks for. -/
def posesAsRecord (e : Event) : Bool :=
  match e.fields.get? "_record" with
  | none | some .null => false
  | some _ => true

def reaches (threshold : Nat) (e : Event) : Bool := threshold ≤ e.level.number

end Event

/-- Who logs: the fields that its events carry. -/
structure Logger where
  bound : Object
  deriving Repr

namespace Logger

/-- Gives names their values one after the other, over those that are there. -/
def withFields (bound fields : Object) : Object :=
  fields.foldl (fun b (name, v) => b.insert name v) bound

def of (component : Text) (fields : Object) : Logger :=
  ⟨withFields [("component", .text component)] fields⟩

/-- An event of a logger; its own fields take precedence over what the logger carries. -/
def event (l : Logger) (level : Level) (name : Text) (fields : Object) : Event :=
  ⟨level, name, withFields l.bound fields⟩

end Logger

end OscMonitor.Log
