import OscMonitor.Log.Line
import OscMonitor.Network.Basic

/-!
# Settings

What an installation sets for its clients. Command-line options and arguments take precedence;
the settings are what is used without them.
-/

namespace OscMonitor

/-- The settings of an installation. -/
structure Settings where
  -- The daemon's host; without one it is the local host.
  host : Option Text := none
  -- The port or service that the daemon monitors on.
  port : Option Text := none
  -- How long a call may wait.
  socketTimeout : Timeout := some (.real (Double.ofQuotient false 5 1))
  -- How many bytes of a reply are read at most.
  bufferSize : Int := 2048
  logLevel : Text := "INFO"
  logFormat : Log.Format := .console
  debug : Bool := false

def Log.Format.name : Log.Format → Text
  | .console => "console"
  | .json => "json"

end OscMonitor
