import OscMonitor.Report.Accept
import OscMonitor.Settings.Basic
import OscMonitor.Settings.EnvFile
import OscMonitor.Text.UpperCase

/-!
# Resolving the settings

Each setting takes its value from the environment, else from the environment file, else it has a
standard value. Names are told apart without regard to case. The settings are accepted when every
value that was found is acceptable for its own setting.

* `Sources.value?` is the value that wins for a setting.
* `Settings.resolve` reads all of them.
-/

namespace OscMonitor

/-- The settings, in order. -/
inductive Setting where
  | host
  | port
  | socketTimeout
  | bufferSize
  | logLevel
  | logFormat
  | debug
  deriving DecidableEq, Repr

namespace Setting

/-- All settings, in order. -/
def all : List Setting :=
  [host, port, socketTimeout, bufferSize, logLevel, logFormat, debug]

def name : Setting → Text
  | host => "host"
  | port => "port"
  | socketTimeout => "socket_timeout"
  | bufferSize => "recv_buffer_size"
  | logLevel => "log_level"
  | logFormat => "log_format"
  | debug => "debug"

/-- The variable of a setting, in lower case. -/
def variableName (s : Setting) : Text := "artmon_" ++ s.name

end Setting

/-- What is wrong with the value of a setting. -/
inductive SettingCause where
  | notUnicode
  | unparsableNumber
  | unparsableInteger
  | integerTooLarge
  -- A size that is not positive.
  | notPositive (n : Int)
  | unknownFormat
  | unclearBoolean
  deriving DecidableEq, Repr

namespace SettingCause

def kind : SettingCause → String
  | notUnicode => "string_unicode"
  | unparsableNumber => "float_parsing"
  | unparsableInteger => "int_parsing"
  | integerTooLarge => "int_parsing_size"
  | notPositive _ => "value_error"
  | unknownFormat => "literal_error"
  | unclearBoolean => "bool_parsing"

/-- The wording of a cause. -/
def message : SettingCause → Text
  | notUnicode => Rejection.notUnicode.message
  | unparsableNumber => Rejection.unparsableNumber.message
  | unparsableInteger => Rejection.unparsableInteger.message
  | integerTooLarge => Rejection.integerTooLarge.message
  | notPositive n => "Value error, recv_buffer_size must be positive, got " ++ .ofInt n
  | unknownFormat => "Input should be 'json' or 'console'"
  | unclearBoolean => Rejection.unclearBoolean.message

end SettingCause

/-- A setting whose value is not acceptable. -/
structure SettingFault where
  setting : Setting
  cause : SettingCause
  deriving DecidableEq, Repr

/-- Where values come from: the environment, and the text of an environment file. -/
structure Sources where
  environment : Keyed Text
  file : Text

namespace Sources

/-- A code point in lower case, as far as names of settings go: beside the letters of ASCII, the
Kelvin sign counts as the letter that it looks like. -/
def foldPoint (p : CodePoint) : CodePoint :=
  if p = .ofNumber 0x212A then .scalar 'k' else p.lowerAscii

/-- A name without its case. -/
def foldName (t : Text) : Text := t.map foldPoint

/-- The last binding of a name, whatever its case. -/
def last? {α : Type} (variableName : Text) (bindings : List (Text × α)) : Option α :=
  (bindings.reverse.find? fun (n, _) => foldName n = variableName).map Prod.snd

/-- The value that wins for a setting: that of the environment, else that of the file. -/
def value? (s : Sources) (setting : Setting) : Option Text :=
  (last? setting.variableName s.environment).or
    (last? setting.variableName (EnvFile.values s.environment s.file)).join

end Sources

namespace Settings

/-- Reads a time limit, where no time at all means none. -/
def readTimeout (t : Text) : Except SettingCause Timeout :=
  match Numeral.real? t with
  | some x => .ok (Timeout.normalize (some (.real x)))
  | none => .error .unparsableNumber

/-- Reads a size, which is positive. -/
def readSize (t : Text) : Except SettingCause Int :=
  match Numeral.integer t with
  | .ok n => if 0 < n then .ok n else .error (.notPositive n)
  | .error .malformed => .error .unparsableInteger
  | .error .tooLong => .error .integerTooLarge

def readFormat (t : Text) : Except SettingCause Log.Format :=
  if t = Log.Format.name .json then .ok .json
  else if t = Log.Format.name .console then .ok .console
  else .error .unknownFormat

/-- Reads a truth value. -/
def readFlag (t : Text) : Except SettingCause Bool :=
  match Accept.flagText t with
  | .ok b => .ok b
  | .error _ => .error .unclearBoolean

/-- What a value reads as, if it is free of surrogates; without one the standard value stands. -/
def readOr {α : Type} (read : Text → Except SettingCause α) (standard : α) :
    Option Text → Except SettingCause α
  | some t => if Accept.isUnicode t then read t else .error .notUnicode
  | none => .ok standard

def faultOf {α : Type} (setting : Setting) : Except SettingCause α → List SettingFault
  | .ok _ => []
  | .error cause => [⟨setting, cause⟩]

/-- The settings for given values, or all values that are not acceptable, in order. -/
def ofValues (value? : Setting → Option Text) : Except (List SettingFault) Settings :=
  let standard : Settings := {}
  let timeout := readOr readTimeout standard.socketTimeout (value? .socketTimeout)
  let size := readOr readSize standard.bufferSize (value? .bufferSize)
  let format := readOr readFormat standard.logFormat (value? .logFormat)
  let debug := readOr readFlag standard.debug (value? .debug)
  match timeout, size, format, debug with
  | .ok timeout, .ok size, .ok format, .ok debug =>
    .ok {
      host := value? .host
      port := value? .port
      socketTimeout := timeout
      bufferSize := size
      logLevel := ((value? .logLevel).map Text.upper).getD standard.logLevel
      logFormat := format
      debug }
  | _, _, _, _ =>
    .error (faultOf .socketTimeout timeout ++ faultOf .bufferSize size
      ++ faultOf .logFormat format ++ faultOf .debug debug)

/-- The settings of an installation, or all values that are not acceptable, in order. -/
def resolve (sources : Sources) : Except (List SettingFault) Settings := ofValues sources.value?

/-- A time limit in one line. -/
def timeoutText (t : Timeout) : Text := ((t.map Seconds.toValue).getD .null).display

/-- The settings in one line. -/
def text (s : Settings) : Text :=
  "ArtMonConfig(host=" ++ s.host.getD "None" ++ ", port=" ++ s.port.getD "None"
    ++ ", timeout=" ++ timeoutText s.socketTimeout ++ ", log_level=" ++ s.logLevel ++ ")"

end Settings

end OscMonitor
