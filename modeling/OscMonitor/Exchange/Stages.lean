import OscMonitor.Exchange.Fault
import OscMonitor.Exchange.Notice
import OscMonitor.Network.Dialogue

/-!
# The stages of an exchange

Each stage is a dialogue that ends in what the next one needs or in the fault of the stage: the
lookup, the connection to the first candidate that accepts, the request, the reply, and the
report that is read from it.

* `connectFirst` also ends in the candidates that it has not tried. A socket that does not connect
  is closed before the next one is created.
-/

namespace OscMonitor.Exchange

def note (n : Notice) : Dialogue Unit := .say n.event

/-- Looks up the candidates for a host and port. Only faults that the caller did not cause, and
names that cannot be encoded, count as a lookup that fails. -/
def resolve (host : Option Text) (port : Text) :
    Dialogue (Except ExchangeFault (List Endpoint)) := do
  match ← Dialogue.ask (.lookup host port) with
  | .ok endpoints =>
    note (.resolved host port endpoints.length)
    return .ok endpoints
  | .error fault =>
    if fault.isExternal || fault.kind == .encoding then
      return .error (.unresolved host port fault)
    else return .error (.interrupted fault)

/-- Sets the time limit of a socket and connects it. -/
def openSocket (socket : Nat) (a : Address) (timeout : Timeout) :
    Dialogue (Except Fault Unit) := do
  match ← Dialogue.ask (.setTimeout socket timeout) with
  | .error fault => return .error fault
  | .ok () => Dialogue.ask (.connect socket a)

/-- Connects to the first candidate that accepts, when `attempts` have been tried before. -/
def connectAfter (host : Option Text) (port : Text) (timeout : Timeout) (attempts : Nat) :
    List Endpoint → Dialogue (Except ExchangeFault Nat × List Endpoint)
  | [] => return (.error (.unreachable host port attempts), [])
  | e :: rest => do
    match ← Dialogue.ask (.create e) with
    | .error fault =>
      if fault.isExternal then
        note (.socketFailed host port e fault)
        connectAfter host port timeout (attempts + 1) rest
      else return (.error (.interrupted fault), rest)
    | .ok socket =>
      match ← openSocket socket e.address timeout with
      | .ok () =>
        note (.connected e (attempts + 1))
        return (.ok socket, rest)
      | .error fault =>
        if fault.isExternal then
          note (.connectFailed host port e fault)
          match ← Dialogue.ask (.close socket) with
          | .ok () => connectAfter host port timeout (attempts + 1) rest
          | .error fault => return (.error (.interrupted fault), rest)
        else return (.error (.interrupted fault), rest)

/-- Connects to the first candidate that accepts. -/
def connectFirst (host : Option Text) (port : Text) (timeout : Timeout)
    (endpoints : List Endpoint) : Dialogue (Except ExchangeFault Nat × List Endpoint) :=
  connectAfter host port timeout 0 endpoints

def sendRequest (socket : Nat) (request : Bytes) : Dialogue (Except ExchangeFault Unit) := do
  match ← Dialogue.ask (.send socket request) with
  | .ok () =>
    note (.sent request.length)
    return .ok ()
  | .error fault =>
    if fault.isExternal then return .error (.unsent fault request.length)
    else return .error (.interrupted fault)

/-- Receives a reply in one call. A reply that fills the buffer may have been cut off, which is
noted; an empty one is none. -/
def receiveReply (socket : Nat) (size : Int) : Dialogue (Except ExchangeFault Bytes) := do
  match ← Dialogue.ask (.receive socket size) with
  | .ok [] => return .error .closed
  | .ok reply =>
    if size ≤ reply.length then note (.filled reply.length size)
    else note (.received reply.length)
    return .ok reply
  | .error fault =>
    if fault.isExternal then return .error (.unanswered fault)
    else return .error (.interrupted fault)

/-- Reads the report of a reply and notes what it leaves out. -/
def readReport (reply : Reply) : Dialogue (Except ExchangeFault Report) := do
  match reply.document with
  | .error fault => return .error (.undecodable fault)
  | .ok document =>
    let report := Report.ofDocument document
    Dialogue.sayAll ((Report.diagnostics document).map fun d => (Notice.diagnostic d).event)
    note (.decoded report.topicNames)
    return .ok report

end OscMonitor.Exchange
