import OscMonitor.Exchange.Basic
import OscMonitor.Text.Quoted

/-!
# Clients

A client holds the daemon's address and the limits for its exchanges. It keeps no connection: each
exchange is one of its own.

* `Client.ofSettings` builds a client; what is not given is taken from the settings.
-/

namespace OscMonitor

/-- A daemon's address and the limits for exchanges with it. -/
structure Client where
  host : Option Text
  port : Text
  timeout : Timeout
  bufferSize : Int

/-- Why there is no client. -/
inductive ClientFault where
  | portMissing
  deriving DecidableEq, Repr

/-- The wording of a fault. -/
def ClientFault.message : ClientFault → String
  | portMissing => "A monitoring port is required"

namespace Client

/-- The client for what is given, and for the rest as the settings say. -/
def ofSettings (settings : Settings) (host : Option Text) (port : Option Port)
    (timeout : Timeout) (size : Option Int) : Except ClientFault Client :=
  match (port.map Port.text).or settings.port with
  | none => .error .portMissing
  | some port =>
    .ok ⟨host.or settings.host, port, timeout.or settings.socketTimeout,
      size.getD settings.bufferSize⟩

/-- One exchange of a client, under the settings of the moment. -/
def exchange (settings : Settings) (c : Client) (action : Action) :
    Dialogue (Except ExchangeFault Report) :=
  OscMonitor.exchange settings c.host (.name c.port) action c.timeout (some c.bufferSize)

/-- A client in one line. -/
def text (c : Client) : Text :=
  "MonitoringClient(host=" ++ (c.host.map Text.quoted).getD "None" ++ ", port=" ++ c.port.quoted
    ++ ")"

end Client

end OscMonitor
