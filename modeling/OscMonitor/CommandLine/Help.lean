import OscMonitor.CommandLine.Flag
import OscMonitor.CommandLine.Template
import OscMonitor.Settings.Resolve
import OscMonitor.Text.Fill
import OscMonitor.Text.Wrap

/-!
# Help for the command line

How the command is used: the one-paragraph usage that also precedes an error, and the full help
with a description of every option and every action. Lines keep within 78 columns, and the
descriptions of options begin at column 24. A description is a template, and it holds what the
settings say; so a percent sign in a setting is read as part of the template.
-/

namespace OscMonitor.CommandLine

namespace Help

/-- The name of the command. -/
def command : Text := "art-monitoring-client"

def columns : Nat := 78

/-- The column where descriptions of options begin. -/
def descriptionColumn : Nat := 24

/-- What an option does, as a template. The defaults are those of the settings. -/
def description (s : Settings) : Flag → Text
  | .help => "show this help message and exit"
  | .address => "Address of the monitoring socket. Defaults to local address"
  | .port => "Port of the monitoring socket (or ARTMON_PORT)"
  | .request => "Send a request to oscillatord (see list below)"
  | .timeout =>
    "I/O timeout in seconds, 0 blocks (default: " ++ Settings.timeoutText s.socketTimeout ++ ")"
  | .raw => "Also print the raw JSON reply"
  | .logLevel => "Logging level (default: " ++ s.logLevel ++ ")"
  | .logFormat => "Log output format (default: " ++ s.logFormat.name ++ ")"

/-- The name under which the value of an option is kept: its long spelling with underscores for
hyphens. -/
def keptAs (f : Flag) : Text :=
  (f.long.drop 2).map fun p => if p = .scalar '-' then .scalar '_' else p

/-- How the value of an option is read, where that has a name. -/
def reading : Flag → Value
  | .timeout => .text "float"
  | .logLevel => .text "upper"
  | _ => .null

/-- The words from which the value of an option is chosen. -/
def choices (f : Flag) : Value :=
  match f.argument with
  | .choice _ words => .text (Text.join ", " words)
  | _ => .null

/-- What stands for the value of an option, where that is not its name or the choices. -/
def ownPlaceholder (f : Flag) : Value :=
  match f.argument with
  | .choice (some placeholder) _ => .text placeholder
  | _ => .null

/-- The properties of an option that takes a value, for its description. -/
def properties (s : Settings) (f : Flag) : Object :=
  [("option_strings", .list (f.names.map .text)), ("dest", .text (keptAs f)), ("nargs", .null),
    ("const", .null), ("default", .null), ("type", reading f), ("choices", choices f),
    ("required", .bool false), ("help", .text (description s f)),
    ("metavar", ownPlaceholder f), ("prog", .text command)]

/-- What an action does. -/
def actionDescription : Action → Text
  | .status => ""
  | .calibration => "request a calibration of the algorithm"
  | .gnssStart => "start gnss receiver"
  | .gnssStop => "stop gnss receiver"
  | .gnssSoft => "soft reset of the gnss receiver"
  | .gnssHard => "hard reset of the gnss receiver"
  | .gnssCold => "cold start of the gnss receiver"
  | .readEeprom => "read disciplining data from EEPROM"
  | .saveEeprom => "save minipod's disciplining data in EEPROM"
  | .fakeHoldoverStart => "start fake holdover"
  | .fakeHoldoverStop => "stop fake holdover"
  | .coarseIncrement => "increment the oscillator's coarse control"
  | .coarseDecrement => "decrement the oscillator's coarse control"

/-- A spelling of an option with what stands for its value. -/
def withPlaceholder (f : Flag) (spelling : Text) : Text :=
  match f.placeholder? with
  | some placeholder => spelling ++ " " ++ placeholder
  | none => spelling

/-- So many spaces. -/
def spaces (n : Nat) : Text := List.replicate n (.scalar ' ')

/-- How the command is used. -/
def usageLines : List Text :=
  let start : Text := "usage: " ++ command ++ " "
  let parts := Flag.all.map fun f => "[" ++ withPlaceholder f (f.names.headD []) ++ "]"
  match Text.fill (columns - start.length) parts with
  | [] => [start]
  | first :: rest => (start ++ first) :: rest.map (spaces start.length ++ ·)

/-- The lines of an option: its spellings, and its description beside them when there is room. -/
def flagLines (s : Settings) (f : Flag) : Except TemplateFault (List Text) :=
  (Template.fill (properties s f) (description s f)).map fun description =>
    let spellings : Text := "  " ++ Text.join ", " (f.names.map (withPlaceholder f))
    let described := description.wrap (columns - descriptionColumn)
    let indent := spaces descriptionColumn
    if spellings.length + 2 ≤ descriptionColumn then
      match described with
      | [] => [spellings]
      | first :: rest =>
        (spellings.padRight descriptionColumn ++ first) :: rest.map (indent ++ ·)
    else spellings :: described.map (indent ++ ·)

/-- The lines before the options. -/
def introduction : List Text :=
  ["", "Interact with oscillatord through its monitoring socket", "", "options:"]

def actionLine (a : Action) : Text := "  " ++ a.name ++ ": " ++ actionDescription a

/-- The lines after the options: every action but that of asking for nothing. -/
def actionLines : List Text :=
  "" :: "Accepted request types:" :: (Action.all.filter (· ≠ .status)).map actionLine

end Help

/-- How the command is used, in a paragraph. -/
def usage : Text := Text.lines Help.usageLines

/-- The full help. The settings can spoil the description of an option. -/
def help (s : Settings) : Except TemplateFault Text :=
  (Flag.all.mapM (Help.flagLines s)).map fun options =>
    usage ++ Text.lines (Help.introduction ++ options.flatten ++ Help.actionLines)

/-- What is written about a fault of the command line. -/
def complaint (message : Text) : Text :=
  usage ++ Help.command ++ ": error: " ++ message ++ "\n"

end OscMonitor.CommandLine
