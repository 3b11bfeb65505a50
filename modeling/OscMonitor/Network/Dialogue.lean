import OscMonitor.Log.Event
import OscMonitor.Network.Basic

/-!
# Dialogues with the network

What a client does, without saying how the network answers: a dialogue makes calls and goes on
with their answers, notes events for the log, and binds the exchange that they belong to. It ends
in a result.

* `Dialogue.bind` puts one dialogue after another.
-/

namespace OscMonitor

/-- A course of calls and notes that ends in a result. -/
inductive Dialogue (α : Type) where
  | done (result : α)
  -- Makes a call.
  | call (c : Call) (next : Except Fault c.Payload → Dialogue α)
  -- Notes an event.
  | note (e : Log.Event) (next : Dialogue α)
  -- Binds an exchange in the log.
  | enter (x : Log.Exchange) (next : Dialogue α)
  -- Unbinds the exchange.
  | leave (next : Dialogue α)
  -- Asks how many milliseconds have passed since an exchange was bound.
  | elapsed (next : Value → Dialogue α)

namespace Dialogue

/-- A dialogue, and after it the one that its result leads to. -/
def bind {α β : Type} : Dialogue α → (α → Dialogue β) → Dialogue β
  | done a, f => f a
  | call c next, f => call c fun answer => (next answer).bind f
  | note e next, f => note e (next.bind f)
  | enter x next, f => enter x (next.bind f)
  | leave next, f => leave (next.bind f)
  | elapsed next, f => elapsed fun v => (next v).bind f

instance : Monad Dialogue where
  pure := done
  bind := bind

/-- Makes a call and ends in its answer. -/
def ask (c : Call) : Dialogue (Except Fault c.Payload) := call c done

def say (e : Log.Event) : Dialogue Unit := note e (done ())

/-- Notes events one after the other. -/
def sayAll (events : List Log.Event) : Dialogue Unit :=
  events.foldr (fun e rest => note e rest) (done ())

end Dialogue

end OscMonitor
