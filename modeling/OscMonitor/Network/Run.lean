import OscMonitor.Network.Dialogue

/-!
# Running a dialogue

A network that behaves in a fixed way, and what comes of a dialogue with it: its result, the
calls in order, and the events as they are written. The n-th socket that is asked for behaves as
the network says for n, whether or not it comes into being.

* `Network.answer` is the answer to a call.
* `Dialogue.run` is the whole run; `Dialogue.run_bind` says how it goes on from one dialogue to
  the next.
-/

namespace OscMonitor

/-- How one socket behaves: the fault that each call ends in, if any, and what the peer sends. -/
structure SocketBehaviour where
  create : Option Fault := none
  setTimeout : Option Fault := none
  connect : Option Fault := none
  send : Option Fault := none
  receive : Option Fault := none
  close : Option Fault := none
  reply : Bytes := []

/-- How a network behaves. -/
structure Network where
  lookup : Except Fault (List Endpoint)
  socket : Nat → SocketBehaviour
  -- How long an exchange takes, in milliseconds.
  elapsed : Value

namespace Network

/-- A fault, or else an answer. -/
def answerUnless {α : Type} (fault : Option Fault) (answer : α) : Except Fault α :=
  match fault with
  | some f => .error f
  | none => .ok answer

/-- The answer to a call when `sockets` sockets have been asked for before. What is received is
the beginning of the reply. -/
def answer (net : Network) (sockets : Nat) : (c : Call) → Except Fault c.Payload
  | .lookup .. => net.lookup
  | .create _ => answerUnless (net.socket sockets).create sockets
  | .setTimeout s _ => answerUnless (net.socket s).setTimeout ()
  | .connect s _ => answerUnless (net.socket s).connect ()
  | .send s _ => answerUnless (net.socket s).send ()
  | .receive s size => answerUnless (net.socket s).receive ((net.socket s).reply.take size.toNat)
  | .close s => answerUnless (net.socket s).close ()

end Network

/-- How many sockets have been asked for after a call. -/
def Call.count (sockets : Nat) : Call → Nat
  | .create _ => sockets + 1
  | _ => sockets

/-- A call as it was made, when `sockets` sockets had been asked for before. -/
structure Step where
  sockets : Nat
  call : Call
  deriving Repr

/-- What comes of a dialogue. -/
structure Run (α : Type) where
  result : α
  -- How many sockets have been asked for.
  sockets : Nat
  -- What is bound in the log afterwards.
  context : Log.Context
  -- The calls, in order.
  steps : List Step
  -- The events as they are written, in order.
  events : List Log.Event

/-- Runs a dialogue on a network, after `sockets` sockets have been asked for and with a context
bound in the log. -/
def Dialogue.run {α : Type} (net : Network) (sockets : Nat) (context : Log.Context) :
    Dialogue α → Run α
  | done a => ⟨a, sockets, context, [], []⟩
  | call c next =>
    let r := (next (net.answer sockets c)).run net (c.count sockets) context
    { r with steps := ⟨sockets, c⟩ :: r.steps }
  | note e next =>
    let r := next.run net sockets context
    { r with events := e.within context :: r.events }
  | enter x next => next.run net sockets (context.enter x)
  | leave next => next.run net sockets context.leave
  | elapsed next => (next net.elapsed).run net sockets context

namespace Run

variable {α β : Type}

/-- Two runs, the second of which began where the first ended, as one. -/
def followedBy (first : Run α) (second : Run β) : Run β :=
  { second with
    steps := first.steps ++ second.steps
    events := first.events ++ second.events }

/-- A run without the events below a threshold. -/
def above (threshold : Nat) (r : Run α) : Run α :=
  { r with events := r.events.filter (·.reaches threshold) }

end Run

namespace Dialogue

variable {α β : Type}

/-- One dialogue after another runs as the one does and then, from there, as the other does. -/
theorem run_bind (net : Network) (d : Dialogue α) (f : α → Dialogue β) (sockets : Nat)
    (context : Log.Context) :
    (d.bind f).run net sockets context =
      (d.run net sockets context).followedBy
        ((f (d.run net sockets context).result).run net (d.run net sockets context).sockets
          (d.run net sockets context).context) := by
  induction d generalizing sockets context with
  | done a => rfl
  | call c next ih => simp [bind, run, ih, Run.followedBy]
  | note e next ih => simp [bind, run, ih, Run.followedBy]
  | enter x next ih => simp [bind, run, ih]
  | leave next ih => simp [bind, run, ih]
  | elapsed next ih => simp [bind, run, ih]

end Dialogue

end OscMonitor
