import OscMonitor.CommandLine.Flag
import OscMonitor.Log.Line
import OscMonitor.Network.Basic
import OscMonitor.Number.Numeral
import OscMonitor.Text.Quoted

/-!
# Reading the command line

The arguments of a command line as the options that they give. Long options may be cut short as
long as that leaves no doubt, values may be attached or follow, and `--` ends the options. Options
are taken in order, so the first fault counts, or the first call for help; what is left over at the
end is a fault too.

* `Reading.of` is what one argument is on its own.
* `CommandLine.read` is the whole reading.
-/

namespace OscMonitor.CommandLine

/-- What is wrong with a command line. -/
inductive UsageFault where
  | ambiguous (argument : Text) (candidates : List Text)
  | valueMissing (f : Flag)
  | valueUnwanted (f : Flag) (value : Text)
  | notNumber (f : Flag) (value : Text)
  | notChoice (f : Flag) (value : Text) (words : List Text)
  | leftOver (arguments : List Text)
  deriving DecidableEq, Repr

namespace UsageFault

/-- The wording of a fault of one option. -/
def about (f : Flag) (message : Text) : Text := "argument " ++ f.title ++ ": " ++ message

/-- The wording of a fault. -/
def message : UsageFault → Text
  | ambiguous argument candidates =>
    "ambiguous option: " ++ argument ++ " could match " ++ Text.join ", " candidates
  | valueMissing f => about f "expected one argument"
  | valueUnwanted f value => about f ("ignored explicit argument " ++ value.quoted)
  | notNumber f value => about f ("invalid float value: " ++ value.quoted)
  | notChoice f value words =>
    about f ("invalid choice: " ++ value.quoted ++ " (choose from "
      ++ Text.join ", " (words.map Text.quoted) ++ ")")
  | leftOver arguments => "unrecognized arguments: " ++ Text.join " " arguments

end UsageFault

/-- A value in the same argument as its option. -/
structure Attached where
  value : Text
  -- Whether an equals sign stands before it.
  assigned : Bool
  deriving DecidableEq, Repr

/-- What an argument is on its own. -/
inductive Reading where
  -- A value, or something that is left over.
  | plain
  -- An option, and the value that is attached to it.
  | flag (f : Flag) (attached : Option Attached)
  -- An option that there is not.
  | unknown
  -- The end of the options.
  | separator
  deriving DecidableEq, Repr

namespace Reading

/-- The two dashes that end the options. -/
def dashes : Text := "--"

/-- Splits an argument at its first equals sign. -/
def splitValue (t : Text) : Text × Option Attached :=
  let name := t.takeWhile (· != .scalar '=')
  match t.drop name.length with
  | _ :: value => (name, some ⟨value, true⟩)
  | [] => (name, none)

/-- The options that an argument may stand for, with their spellings: those whose long spelling it
begins, or the one whose short spelling begins it. -/
def candidates (t : Text) : List (Text × Flag) × Option Attached :=
  match t with
  | .scalar '-' :: .scalar '-' :: _ =>
    let (start, attached) := splitValue t
    (Flag.spellings.filter fun (spelling, _) => start.isPrefixOf spelling, attached)
  | _ =>
    (Flag.spellings.filter fun (spelling, _) => spelling = t.take 2, some ⟨t.drop 2, false⟩)

/-- Whether an argument is a negative number, of digits of any script with at most one point. -/
def isNegativeNumber (t : Text) : Bool :=
  let body := if t.getLast? = some (.scalar '\n') then t.dropLast else t
  match body.map Text.asciiDigit with
  | .scalar '-' :: rest =>
    match Numeral.splitDigits rest with
    | (digits, []) => !digits.isEmpty
    | (_, .scalar '.' :: places) => !places.isEmpty && places.all (·.isDigit)
    | _ => false
  | _ => false

/-- What an argument is that begins with a dash and is no spelling of an option. -/
def ofDashed (t : Text) : Except UsageFault Reading :=
  match candidates t with
  | ([], _) => .ok (if isNegativeNumber t || t.contains (.scalar ' ') then plain else unknown)
  | ([(_, f)], attached) => .ok (flag f attached)
  | (several, _) => .error (.ambiguous t (several.map Prod.fst))

/-- What an argument is on its own. -/
def of (t : Text) : Except UsageFault Reading :=
  match t with
  | .scalar '-' :: _ :: _ =>
    if t = dashes then .ok separator
    else
      match Flag.ofSpelling? t with
      | some f => .ok (flag f none)
      | none =>
        match splitValue t with
        | (name, some attached) =>
          match Flag.ofSpelling? name with
          | some f => .ok (flag f (some attached))
          | none => ofDashed t
        | (_, none) => ofDashed t
  | _ => .ok plain

/-- What the arguments are, each with its text; none is an option after the end of the options. -/
def all : List Text → Except UsageFault (List (Text × Reading))
  | [] => .ok []
  | t :: rest =>
    match of t with
    | .error fault => .error fault
    | .ok separator => .ok ((t, separator) :: rest.map fun u => (u, plain))
    | .ok reading =>
      match all rest with
      | .error fault => .error fault
      | .ok readings => .ok ((t, reading) :: readings)

end Reading

/-- The options that a command line gives. -/
structure Options where
  address : Option Text := none
  port : Option Text := none
  action : Option Action := none
  timeout : Option Double := none
  raw : Bool := false
  logLevel : Option Text := none
  logFormat : Option Log.Format := none

/-- What a command line asks for. -/
inductive Plan where
  | help
  | exchange (o : Options)

namespace Options

/-- One of the words that an option takes. -/
def choose (f : Flag) (words : List Text) (value : Text) : Except UsageFault Text :=
  if words.contains value then .ok value else .error (.notChoice f value words)

/-- Takes an option that has no value. -/
def setFlag (o : Options) : Flag → Options
  | .raw => { o with raw := true }
  | _ => o

def setValue (o : Options) (f : Flag) (value : Text) : Except UsageFault Options :=
  match f with
  | .help | .raw => .ok o
  | .address => .ok { o with address := some value }
  | .port => .ok { o with port := some value }
  | .request => do
    let name ← choose f Action.names value
    return { o with action := Action.all.find? fun a => a.name = name }
  | .timeout =>
    match Numeral.option? value with
    | some x => .ok { o with timeout := some x }
    | none => .error (.notNumber f value)
  | .logLevel => do
    let level ← choose f Flag.levelWords value.upper
    return { o with logLevel := some level }
  | .logFormat => do
    let format ← choose f Flag.formatWords value
    return { o with logFormat := some (Log.Format.ofName format) }

end Options

/-- The options in one argument, the last of them with the value that is attached to it. -/
structure Cluster where
  before : List Flag
  last : Flag
  value : Option Text

namespace Cluster

/-- An option with a value after an equals sign. -/
def ofAssigned (f : Flag) (value : Text) : Except UsageFault Cluster :=
  if f.takesValue then .ok ⟨[], f, some value⟩ else .error (.valueUnwanted f value)

/-- The value after an equals sign, if the text begins with one. -/
def assigned? : Text → Option Text
  | .scalar '=' :: value => some value
  | _ => none

/-- A short option with what is joined to it: its value, or further short options. Only the call
for help has no value, so what is joined to it and is no option is of no account. -/
def ofJoined (f : Flag) : Text → Except UsageFault Cluster
  | [] => .ok ⟨[], f, none⟩
  | p :: rest =>
    if f.takesValue then .ok ⟨[], f, some (p :: rest)⟩
    else if p = .scalar '-' then .error (.valueUnwanted f (p :: rest))
    else
      match Flag.ofSpelling? [.scalar '-', p] with
      | none => .ok ⟨[], f, none⟩
      | some next =>
        let others :=
          match assigned? rest with
          | some value => ofAssigned next value
          | none => ofJoined next rest
        others.map fun c => { c with before := f :: c.before }

def of (f : Flag) : Option Attached → Except UsageFault Cluster
  | none => .ok ⟨[], f, none⟩
  | some ⟨value, true⟩ => ofAssigned f value
  | some ⟨value, false⟩ => ofJoined f value

/-- The value of the last option: what is attached, else what follows; and whether that is used
up. -/
def valueOf (c : Cluster) (following : Option Text) : Except UsageFault (Option Text × Bool) :=
  match c.value with
  | some value => .ok (some value, false)
  | none =>
    if c.last.takesValue then
      match following with
      | some value => .ok (some value, true)
      | none => .error (.valueMissing c.last)
    else .ok (none, false)

/-- Whether help is called for. -/
def asksHelp (c : Cluster) : Bool := c.before.contains .help || c.last == .help

end Cluster

/-- What taking an argument leads to: help at once, or the options so far. -/
inductive Taken where
  | help
  -- The options, and whether the value that follows is used up.
  | options (o : Options) (usesNext : Bool)

/-- Takes an option with its value, if it has one. -/
def Options.set (o : Options) (f : Flag) : Option Text → Except UsageFault Options
  | none => .ok (o.setFlag f)
  | some value => o.setValue f value

/-- Takes the options of one argument, when a value may follow it. -/
def take (o : Options) (f : Flag) (attached : Option Attached) (following : Option Text) :
    Except UsageFault Taken := do
  let cluster ← Cluster.of f attached
  let (value, usesNext) ← cluster.valueOf following
  if cluster.asksHelp then return .help
  return .options (← o.set cluster.last value) usesNext

/-- The value that comes first, if it is one. -/
def following? : List (Text × Reading) → Option Text
  | (t, .plain) :: _ => some t
  | _ => none

/-- Takes what the arguments are, one after the other. `extra` is what is left over so far, in
reverse. -/
def takeAll (o : Options) (extra : List Text) :
    List (Text × Reading) → Except UsageFault Plan
  | [] => if extra.isEmpty then .ok (.exchange o) else .error (.leftOver extra.reverse)
  | (t, reading) :: rest =>
    match reading with
    | .flag f attached =>
      match take o f attached (following? rest) with
      | .error fault => .error fault
      | .ok .help => .ok .help
      | .ok (.options o usesNext) => takeAll o extra (if usesNext then rest.tail else rest)
    | _ => takeAll o (t :: extra) rest
termination_by readings => readings.length
decreasing_by
  · simp only [List.length_cons]
    split
    · rw [List.length_tail]; omega
    · omega
  · simp

/-- What a command line asks for. -/
def read (arguments : List Text) : Except UsageFault Plan :=
  match Reading.all arguments with
  | .error fault => .error fault
  | .ok readings => takeAll {} [] readings

end OscMonitor.CommandLine
