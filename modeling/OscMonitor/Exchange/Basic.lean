import OscMonitor.Exchange.Stages
import OscMonitor.Request.Codec
import OscMonitor.Settings.Basic

/-!
# Exchanges

One exchange with the daemon: look it up, connect, send one request, receive one reply, close the
connection, and read the report. Nothing is tried twice. Until it ends, the exchange is bound in
the log.

* `exchange` is the whole exchange.
-/

namespace OscMonitor

/-- The port of a daemon: a service name or a number. -/
inductive Port where
  | name (t : Text)
  | number (n : Int)
  deriving DecidableEq, Repr

def Port.text : Port → Text
  | name t => t
  | number n => .ofInt n

namespace Exchange

/-- The time limit of an exchange: the argument when it says anything, and then a limit of no time
at all means none; else the setting as it is. -/
def timeoutFor (settings : Settings) (timeout : Timeout) : Timeout :=
  match timeout with
  | none => settings.socketTimeout
  | some s => Timeout.normalize (some s)

/-- Sends a request on a socket and receives the reply. -/
def converse (socket : Nat) (action : Action) (size : Int) :
    Dialogue (Except ExchangeFault Bytes) := do
  match ← sendRequest socket action.toBytes with
  | .error fault => return .error fault
  | .ok () => receiveReply socket size

/-- The exchange on a connected socket, which is closed whatever happens on it. -/
def onSocket (socket : Nat) (action : Action) (size : Int) :
    Dialogue (Except ExchangeFault Report) := do
  let reply ← converse socket action size
  match ← Dialogue.ask (.close socket) with
  | .error fault => return .error (.interrupted fault)
  | .ok () =>
    match reply with
    | .error fault => return .error fault
    | .ok bytes => readReport (.bytes bytes)

/-- The exchange without its frame in the log. -/
def unbound (host : Option Text) (port : Text) (action : Action) (timeout : Timeout)
    (size : Int) : Dialogue (Except ExchangeFault Report) := do
  match ← resolve host port with
  | .error fault => return .error fault
  | .ok endpoints =>
    match (← connectFirst host port timeout endpoints).1 with
    | .error fault => return .error fault
    | .ok socket =>
      match ← onSocket socket action size with
      | .error fault => return .error fault
      | .ok report =>
        let duration ← Dialogue.elapsed .done
        note (.completed report.topicNames duration)
        return .ok report

end Exchange

/-- One exchange with the daemon. Without a time limit or a size the settings decide. -/
def exchange (settings : Settings) (host : Option Text) (port : Port) (action : Action)
    (timeout : Timeout) (size : Option Int) : Dialogue (Except ExchangeFault Report) := do
  Dialogue.enter (.ofTarget host port.text action.name) (.done ())
  let result ← Exchange.unbound host port.text action (Exchange.timeoutFor settings timeout)
    (size.getD settings.bufferSize)
  Dialogue.leave (.done ())
  return result

end OscMonitor
