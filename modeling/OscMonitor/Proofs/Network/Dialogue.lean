import OscMonitor.Network.Run

/-!
# Runs of dialogues

What comes of each way to build a dialogue: one equation for each answer, note and binding, and one
for each way to put dialogues together. With them a run is computed without a look at how it is
defined.
-/

namespace OscMonitor

/-! ## Answers -/

namespace Network

variable {α : Type} {answer : α}

theorem answerUnless_eq_ok {fault : Option Fault} (h : fault = none) :
    answerUnless fault answer = .ok answer := by
  rw [h]
  rfl

theorem answerUnless_eq_error {fault : Option Fault} {f : Fault} (h : fault = some f) :
    answerUnless fault answer = .error f := by
  rw [h]
  rfl

end Network

/-! ## Runs -/

namespace Run

variable {α β : Type} (first : Run α) (second : Run β)

@[simp] theorem followedBy_result : (first.followedBy second).result = second.result := rfl

@[simp] theorem followedBy_sockets : (first.followedBy second).sockets = second.sockets := rfl

@[simp] theorem followedBy_context : (first.followedBy second).context = second.context := rfl

@[simp] theorem followedBy_steps :
    (first.followedBy second).steps = first.steps ++ second.steps := rfl

@[simp] theorem followedBy_events :
    (first.followedBy second).events = first.events ++ second.events := rfl

end Run

namespace Dialogue

variable {α β : Type} (net : Network) (sockets : Nat) (context : Log.Context)

@[simp] theorem run_pure (a : α) :
    (pure a : Dialogue α).run net sockets context = ⟨a, sockets, context, [], []⟩ := rfl

@[simp] theorem run_done (a : α) :
    (done a).run net sockets context = ⟨a, sockets, context, [], []⟩ := rfl

@[simp] theorem run_bind_eq (d : Dialogue α) (f : α → Dialogue β) :
    (d >>= f).run net sockets context =
      (d.run net sockets context).followedBy
        ((f (d.run net sockets context).result).run net (d.run net sockets context).sockets
          (d.run net sockets context).context) :=
  run_bind net d f sockets context

/-- A call that is answered, and what follows on the answer. -/
theorem run_ask_bind {c : Call} {answer : Except Fault c.Payload}
    (h : net.answer sockets c = answer) (f : Except Fault c.Payload → Dialogue β) :
    (ask c >>= f).run net sockets context =
      (⟨(), c.count sockets, context, [⟨sockets, c⟩], []⟩ : Run Unit).followedBy
        ((f answer).run net (c.count sockets) context) := by
  subst h
  rfl

/-! ## Notes and bindings -/

@[simp] theorem run_say (e : Log.Event) :
    (say e).run net sockets context = ⟨(), sockets, context, [], [e.within context]⟩ := rfl

@[simp] theorem run_sayAll (events : List Log.Event) :
    (sayAll events).run net sockets context =
      ⟨(), sockets, context, [], events.map (Log.Event.within context)⟩ := by
  induction events with
  | nil => rfl
  | cons e events ih =>
    have hCons : (sayAll (e :: events)).run net sockets context =
        { (sayAll events).run net sockets context with
          events := e.within context :: ((sayAll events).run net sockets context).events } := rfl
    rw [hCons, ih, List.map_cons]

@[simp] theorem run_enter (x : Log.Exchange) (next : Dialogue α) :
    (enter x next).run net sockets context = next.run net sockets (context.enter x) := rfl

@[simp] theorem run_leave (next : Dialogue α) :
    (leave next).run net sockets context = next.run net sockets context.leave := rfl

@[simp] theorem run_elapsed (next : Value → Dialogue α) :
    (elapsed next).run net sockets context = (next net.elapsed).run net sockets context := rfl

end Dialogue

end OscMonitor
