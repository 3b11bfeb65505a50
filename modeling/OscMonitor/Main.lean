import OscMonitor.CommandLine.Run
import OscMonitor.Settings.Resolve
import Std.Async.DNS
import Std.Async.TCP
import Std.Async.Timer

/-!
# The command on this machine

The outer layer of the command. Its settings come from the environment, the calls of its dialogue
go to the sockets of the machine, and what it logs goes to the standard output as it happens.
Everything that is decided is decided elsewhere.
-/

namespace OscMonitor.Machine

open Std.Async
open Std.Net (IPAddr IPv4Addr IPv6Addr SocketAddress)

/-- A socket that is open. -/
structure Socket where
  client : TCP.Socket.Client
  timeout : Timeout := none

/-- Where a dialogue on this machine stands. -/
structure Session where
  -- The sockets by number; one that is closed has left its place.
  sockets : Array (Option Socket) := #[]
  log : Log.System
  -- When the last exchange was bound, in milliseconds.
  start : Nat := 0

/-- A text as far as it can be written. -/
def written (t : Text) : String :=
  String.ofList (t.map fun p =>
    match p with
    | .scalar c => c
    | .surrogate .. => '\uFFFD')

/-- The code and the wording that the system gives an error. -/
def coded? : IO.Error → Option (UInt32 × String)
  | .alreadyExists _ code text | .otherError code text | .resourceBusy code text
  | .resourceVanished code text | .unsupportedOperation code text | .hardwareFault code text
  | .unsatisfiedConstraints code text | .illegalOperation code text | .protocolError code text
  | .timeExpired code text | .interrupted _ code text | .noFileOrDirectory _ code text
  | .invalidArgument _ code text | .permissionDenied _ code text | .resourceExhausted _ code text
  | .inappropriateType _ code text | .noSuchThing _ code text => some (code, text)
  | .unexpectedEof | .userError _ => none

/-- A fault of the system. The codes of calls on sockets are negative. -/
def systemFault (e : IO.Error) : Fault :=
  match coded? e with
  | some (code, text) => ⟨.system, some code.toInt32.toInt.natAbs, .ofString text⟩
  | none => ⟨.system, none, .ofString (toString e)⟩

/-- What an action answers, or the fault that it ends in. -/
def attempt {α : Type} (faultOf : IO.Error → Fault) (act : IO α) : IO (Except Fault α) := do
  match ← act.toBaseIO with
  | .ok a => return .ok a
  | .error e => return .error (faultOf e)

/-- A time limit in whole milliseconds, at least one of them. -/
def milliseconds : Seconds → Nat
  | .whole n => max 1 (1000 * n.toNat)
  | .real (.finite _ m e _) =>
    let (n, d) := Double.quotient m e
    max 1 (1000 * n / d)
  | .real _ => 0

/-- Whether a time limit can be kept: its milliseconds fit a signed word. -/
def isKeepable (s : Seconds) : Bool := 0 < milliseconds s && milliseconds s < 0x8000000000000000

/-- Waits for work as long as the limit allows. -/
def await {α : Type} (limit : Timeout) (work : Async α) : IO (Except Fault α) := do
  match limit with
  | none => attempt systemFault work.block
  | some s =>
    let alarm : Async (Option α) := do
      sleep (.ofNat (milliseconds s))
      return none
    match ← attempt systemFault (Async.race (some <$> work) alarm).block with
    | .ok (some a) => return .ok a
    | .ok none => return .error ⟨.timeout, none, "timed out"⟩
    | .error fault => return .error fault

/-- The endpoint of an address. -/
def endpoint (port : Nat) : IPAddr → Endpoint
  | .v4 a => ⟨.v4 (.ofString a.toString) port, Endpoint.stream, Endpoint.tcp⟩
  | .v6 a => ⟨.v6 (.ofString a.toString) port 0 0, Endpoint.stream, Endpoint.tcp⟩

/-- The local host, as it is looked up without a name. -/
def loopback : List IPAddr := [.v6 (.ofParts 0 0 0 0 0 0 0 1), .v4 (.ofParts 127 0 0 1)]

def lookupFault (number : Int) (text : Text) : Fault := ⟨.lookup, some number, text⟩

/-- The number of a port, where services have no names. -/
def portNumber? (port : Text) : Option Nat :=
  ((written port).toNat?).filter (· < 0x10000)

/-- Looks up the endpoints of a host and port, each once. -/
def lookup (host : Option Text) (port : Text) : IO (Except Fault (List Endpoint)) := do
  match portNumber? port with
  | none => return .error (lookupFault (-8) "Servname not supported for ai_socktype")
  | some n =>
    match host with
    | none => return .ok (loopback.map (endpoint n))
    | some name =>
      match name.toString? with
      | none => return .error ⟨.encoding, none, "the name of the host cannot be encoded"⟩
      | some name =>
        let found ← attempt (fun _ => lookupFault (-2) "Name or service not known")
          (DNS.getAddrInfo name (toString n)).block
        return found.map fun addresses => (addresses.toList.map (endpoint n)).eraseDups

def socketAddress? : Address → Option SocketAddress
  | .v4 host port =>
    (IPv4Addr.ofString (written host)).map fun a => .v4 ⟨a, port.toUInt16⟩
  | .v6 host port _ _ =>
    (IPv6Addr.ofString (written host)).map fun a => .v6 ⟨a, port.toUInt16⟩

/-- The fault of a call on a socket that is not open. -/
def badSocket : Fault := ⟨.system, some 9, "Bad file descriptor"⟩

/-- Works with an open socket, as long as its limit allows. -/
def withSocket {α : Type} (s : Session) (n : Nat) (work : TCP.Socket.Client → Async α) :
    IO (Except Fault α) := do
  match (s.sockets[n]?).join with
  | some socket => await socket.timeout (work socket.client)
  | none => return .error badSocket

/-- Sets the limit of a socket. -/
def Session.limit (s : Session) (n : Nat) (t : Timeout) : Except Fault Unit × Session :=
  match (s.sockets[n]?).join with
  | none => (.error badSocket, s)
  | some socket =>
    if t.all isKeepable then
      (.ok (), { s with sockets := s.sockets.set! n (some { socket with timeout := t }) })
    else (.error ⟨.argument, none, "timeout out of range"⟩, s)

/-- Makes a call. -/
def Session.answer (s : Session) : (c : Call) → IO (Except Fault c.Payload × Session)
  | .lookup host port => return (← lookup host port, s)
  | .create _ => do
    match ← attempt systemFault TCP.Socket.Client.mk with
    | .ok client =>
      return (.ok s.sockets.size, { s with sockets := s.sockets.push (some ⟨client, none⟩) })
    | .error fault => return (.error fault, { s with sockets := s.sockets.push none })
  | .setTimeout n t => return s.limit n t
  | .connect n a => do
    match socketAddress? a with
    | some address => return (← withSocket s n (·.connect address), s)
    | none => return (.error badSocket, s)
  | .send n b => return (← withSocket s n (·.send ⟨b.toArray⟩), s)
  | .receive n size => do
    let received ← withSocket s n (·.recv? (UInt64.ofNat size.toNat))
    return (received.map fun data => (data.map fun d => d.data.toList).getD [], s)
  | .close n => return (.ok (), { s with sockets := s.sockets.setIfInBounds n none })

/-- The time of day, in universal time. -/
def timestamp : IO Text := do
  let now ← Std.Time.Timestamp.now
  return .ofString
    ((Std.Time.DateTime.ofTimestampWithZone now .UTC).format "uuuu-MM-dd'T'HH:mm:ss.SSSSSS'Z'")

def put (stream : IO.FS.Stream) (t : Text) : IO Unit := do
  stream.putStr (written t)
  stream.flush

/-- The standard output and files are encoded alike. -/
def encoding : Encoding := .utf8

/-- What is there when an event is logged. -/
def moment : IO Log.Moment := do
  let plain : Log.Moment ← timestamp
  return { plain with console := encoding, files := encoding, arrangement := .asMade }

def Session.write (s : Session) (e : Log.Event) : IO Session := do
  let log := s.log.write (← moment) e
  put (← IO.getStdout) (log.console.drop s.log.console.length)
  return { s with log }

/-- Conducts a dialogue with this machine. -/
def Session.conduct {α : Type} (s : Session) : Dialogue α → IO α
  | .done a => return a
  | .call c next => do
    let (answer, s) ← s.answer c
    s.conduct (next answer)
  | .note e next => do
    let s ← s.write e
    s.conduct next
  | .enter x next => do
    Session.conduct { s with log := s.log.enter x, start := ← IO.monoMsNow } next
  | .leave next => Session.conduct { s with log := s.log.leave } next
  | .elapsed next => do
    let passed := (← IO.monoMsNow) - s.start
    s.conduct (next (.float (Double.ofQuotient false passed 1)))

/-- The variables of the environment that set something. -/
def environment : IO (Keyed Text) := do
  let found ← Setting.all.mapM fun setting => do
    let variableName := setting.variableName.upper
    let value ← IO.getEnv (written variableName)
    return value.map fun v => (variableName, Text.ofString v)
  return found.filterMap id

/-- The settings of this machine. -/
def settings : IO Settings := do
  match Settings.resolve ⟨← environment, []⟩ with
  | .ok s => return s
  | .error faults =>
    let lines : List Text := faults.map fun f => f.setting.name ++ ": " ++ f.cause.message
    throw (.userError (written (Text.join "\n" lines)))

/-- Writes the help. -/
def putHelp (s : Settings) : IO Unit := do
  match CommandLine.help s with
  | .error fault => throw (.userError (written fault.message))
  | .ok text =>
    match CommandLine.refusal? encoding text with
    | some fault => throw (.userError (written fault.message))
    | none => put (← IO.getStdout) text

/-- Does what the options ask for. -/
def perform (s : Settings) (o : CommandLine.Options) : IO UInt32 := do
  match Log.System.initial.configure (CommandLine.setup s o) with
  | (.error fault, _) => throw (.userError (written fault.message))
  | (.ok (), log) =>
    match ← Session.conduct { log } (CommandLine.converse s o) with
    | .passed => return 0
    | .failed => return 1
    | .portMissing =>
      putHelp s
      return 1
    | .interrupted fault => throw (.userError (written fault.message))

/-- Runs the command with the arguments it was given. -/
def run (arguments : List Text) : IO UInt32 := do
  let s ← settings
  match CommandLine.read arguments with
  | .error fault =>
    put (← IO.getStderr) (CommandLine.complaint fault.message)
    return 2
  | .ok .help =>
    putHelp s
    return 0
  | .ok (.exchange o) => perform s o

end OscMonitor.Machine

/-- The command. -/
def main (arguments : List String) : IO UInt32 :=
  OscMonitor.Machine.run (arguments.map OscMonitor.Text.ofString)
