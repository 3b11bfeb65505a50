import OscMonitor.Document.Value
import OscMonitor.Number.Layout
import OscMonitor.Text.Utf8

/-!
# The network

What a client sees of the network: addresses and the endpoints that a lookup yields, time limits,
the faults that calls end in, and the calls themselves with what each of them answers.
-/

namespace OscMonitor

/-- An address of the internet. -/
inductive Address where
  | v4 (host : Text) (port : Nat)
  | v6 (host : Text) (port flow scope : Nat)
  deriving DecidableEq, Repr

namespace Address

/-- The version of the internet protocol. -/
def version : Address → Nat
  | v4 .. => 4
  | v6 .. => 6

def host : Address → Text
  | v4 host _ => host
  | v6 host .. => host

def port : Address → Nat
  | v4 _ port => port
  | v6 _ port .. => port

end Address

/-- A candidate for a connection. -/
structure Endpoint where
  address : Address
  -- The type of socket to create.
  socketType : Nat
  -- The protocol that the socket speaks.
  protocol : Nat
  deriving DecidableEq, Repr

namespace Endpoint

/-- The type of sockets that carry streams. -/
def stream : Nat := 1

/-- The transmission control protocol. -/
def tcp : Nat := 6

/-- An endpoint as the log shows it. -/
def text (e : Endpoint) : Text :=
  e.address.host ++ ":" ++ .ofNat e.address.port ++ " (IPv" ++ .ofNat e.address.version ++ ")"

end Endpoint

/-- A number of seconds, as it was given. -/
inductive Seconds where
  | whole (n : Int)
  | real (x : Double)
  deriving Repr

namespace Seconds

/-- Whether a number of seconds is at most zero. -/
def nonpositive : Seconds → Bool
  | whole n => n ≤ 0
  | real x => x.nonpositive

/-- The number as a value. -/
def toValue : Seconds → Value
  | whole n => .int n
  | real x => .float x

end Seconds

/-- How long a call may wait; without a limit it blocks. -/
abbrev Timeout := Option Seconds

/-- A limit of no time at all means none. -/
def Timeout.normalize (t : Timeout) : Timeout := t.filter fun s => !s.nonpositive

/-- The kinds of faults that calls end in. -/
inductive FaultKind where
  -- The operating system reports it.
  | system
  -- The lookup of a name fails.
  | lookup
  -- A time limit is reached.
  | timeout
  -- A name cannot be encoded for the lookup.
  | encoding
  -- An argument of the call is not allowed.
  | argument
  deriving DecidableEq, Repr

/-- A fault of the network. -/
structure Fault where
  kind : FaultKind
  -- The number of the fault, if it has one.
  number : Option Int
  text : Text
  deriving DecidableEq, Repr

namespace Fault

/-- Whether a fault comes from the system, the network or the peer, and not from the caller. -/
def isExternal (f : Fault) : Bool :=
  match f.kind with
  | .system | .lookup | .timeout => true
  | .encoding | .argument => false

def message (f : Fault) : Text :=
  match f.number with
  | some n => "[Errno " ++ .ofInt n ++ "] " ++ f.text
  | none => f.text

/-- What a fault says without its number, if it says anything. -/
def reason (f : Fault) : Text := if f.text.isEmpty then f.message else f.text

end Fault

/-- The calls that a client makes. Sockets go by numbers. -/
inductive Call where
  | lookup (host : Option Text) (port : Text)
  | create (e : Endpoint)
  | setTimeout (socket : Nat) (t : Timeout)
  | connect (socket : Nat) (a : Address)
  | send (socket : Nat) (b : Bytes)
  | receive (socket : Nat) (size : Int)
  | close (socket : Nat)
  deriving Repr

/-- What a call answers when it succeeds. -/
abbrev Call.Payload : Call → Type
  | .lookup .. => List Endpoint
  | .create _ => Nat
  | .receive .. => Bytes
  | .setTimeout .. | .connect .. | .send .. | .close _ => Unit

end OscMonitor
