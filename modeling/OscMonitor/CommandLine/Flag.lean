import OscMonitor.Request.Action

/-!
# The options of the command line

Which options there are, how they are spelled, and what value each of them takes.

* `Flag.spellings` lists every spelling once, in order.
-/

namespace OscMonitor.CommandLine

/-- An option of the command line. -/
inductive Flag where
  | help
  | address
  | port
  | request
  | timeout
  | raw
  | logLevel
  | logFormat
  deriving DecidableEq, Repr

/-- What an option takes as its value. -/
inductive Argument where
  | none
  | text (placeholder : Text)
  | number (placeholder : Text)
  -- One of some words; a placeholder may stand for them.
  | choice (placeholder : Option Text) (words : List Text)

namespace Flag

/-- All options, in order. -/
def all : List Flag := [help, address, port, request, timeout, raw, logLevel, logFormat]

def short? : Flag → Option Text
  | help => some "-h"
  | address => some "-a"
  | port => some "-p"
  | request => some "-r"
  | timeout => some "-t"
  | raw | logLevel | logFormat => none

/-- The long spelling of an option. -/
def long : Flag → Text
  | help => "--help"
  | address => "--address"
  | port => "--port"
  | request => "--request"
  | timeout => "--timeout"
  | raw => "--raw"
  | logLevel => "--log-level"
  | logFormat => "--log-format"

/-- The spellings of an option, the short one first. -/
def names (f : Flag) : List Text := f.short?.toList ++ [f.long]

/-- Every spelling with its option, in order. -/
def spellings : List (Text × Flag) := all.flatMap fun f => f.names.map fun name => (name, f)

def ofSpelling? (t : Text) : Option Flag := spellings.lookup t

/-- The names of the log levels that can be chosen. -/
def levelWords : List Text := ["DEBUG", "INFO", "WARNING", "ERROR", "CRITICAL"]

/-- The names of the log formats that can be chosen. -/
def formatWords : List Text := ["console", "json"]

/-- What an option takes. -/
def argument : Flag → Argument
  | help | raw => .none
  | address => .text "ADDRESS"
  | port => .text "PORT"
  | request => .choice (some "REQUEST_TYPE") Action.names
  | timeout => .number "TIMEOUT"
  | logLevel => .choice none levelWords
  | logFormat => .choice none formatWords

def takesValue (f : Flag) : Bool :=
  match f.argument with
  | .none => false
  | _ => true

/-- What stands for the value of an option where it is described. -/
def placeholder? (f : Flag) : Option Text :=
  match f.argument with
  | .none => none
  | .text placeholder => some placeholder
  | .number placeholder => some placeholder
  | .choice (some placeholder) _ => some placeholder
  | .choice none words => some ("\x7b" ++ Text.join "," words ++ "\x7d")

/-- An option in a message: all its spellings. -/
def title (f : Flag) : Text := Text.join "/" f.names

end Flag

end OscMonitor.CommandLine
