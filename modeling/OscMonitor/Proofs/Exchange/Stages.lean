import OscMonitor.Exchange.Stages
import OscMonitor.Proofs.Network.Dialogue
import OscMonitor.Proofs.Report.Reading

/-!
# Runs of the stages

What comes of each stage of an exchange on a network: its result, the calls it makes and the
events it notes, by the behaviour of the socket at hand. For the stage that tries one candidate
after the other the equation says what becomes of the first one.

* `connectAfter_run_cons` — the first candidate connects, is passed over, or ends the stage.
* `readReport_run` — reading a report makes no call and notes what the report leaves out.
-/

namespace OscMonitor

/-- The fault that opening a socket ends in, if any. -/
def SocketBehaviour.opening (b : SocketBehaviour) : Option Fault := b.setTimeout.or b.connect

namespace Exchange

variable (net : Network) (sockets : Nat) (context : Log.Context)
variable (host : Option Text) (port : Text) (timeout : Timeout)

@[simp] theorem note_run (n : Notice) :
    (note n).run net sockets context = ⟨(), sockets, context, [], [n.event.within context]⟩ := rfl

/-- The lookup ends in the candidates, or in a fault of the stage or of none. -/
theorem resolve_run :
    (resolve host port).run net sockets context =
      match net.lookup with
      | .ok endpoints =>
        ⟨.ok endpoints, sockets, context, [⟨sockets, .lookup host port⟩],
          [(Notice.resolved host port endpoints.length).event.within context]⟩
      | .error fault =>
        ⟨.error (if fault.isExternal || fault.kind == .encoding then .unresolved host port fault
            else .interrupted fault),
          sockets, context, [⟨sockets, .lookup host port⟩], []⟩ := by
  unfold resolve
  cases hLookup : net.lookup with
  | ok endpoints =>
    rw [Dialogue.run_ask_bind _ _ _ (show net.answer sockets (.lookup host port) = _ from hLookup)]
    rfl
  | error fault =>
    rw [Dialogue.run_ask_bind _ _ _ (show net.answer sockets (.lookup host port) = _ from hLookup)]
    dsimp only
    split <;> rfl

/-- The calls that open a socket: the connection is tried only when the time limit is set. -/
def openingSteps (socket : Nat) (a : Address) : List Step :=
  ⟨sockets, .setTimeout socket timeout⟩ ::
    if (net.socket socket).setTimeout.isNone then [⟨sockets, .connect socket a⟩] else []

theorem openSocket_run (socket : Nat) (a : Address) :
    (openSocket socket a timeout).run net sockets context =
      ⟨Network.answerUnless (net.socket socket).opening (), sockets, context,
        openingSteps net sockets timeout socket a, []⟩ := by
  unfold openSocket openingSteps SocketBehaviour.opening
  cases hTimeout : (net.socket socket).setTimeout with
  | some fault =>
    have hAnswer : net.answer sockets (.setTimeout socket timeout) = .error fault :=
      Network.answerUnless_eq_error hTimeout
    rw [Dialogue.run_ask_bind _ _ _ hAnswer]
    rfl
  | none =>
    have hAnswer : net.answer sockets (.setTimeout socket timeout) = .ok () :=
      Network.answerUnless_eq_ok hTimeout
    rw [Dialogue.run_ask_bind _ _ _ hAnswer]
    rfl

/-- What becomes of the first candidate, and how the stage goes on after it. -/
theorem connectAfter_run_cons (attempts : Nat) (e : Endpoint) (rest : List Endpoint) :
    (connectAfter host port timeout attempts (e :: rest)).run net sockets context =
      match (net.socket sockets).create with
      | some fault =>
        if fault.isExternal then
          (⟨(), sockets + 1, context, [⟨sockets, .create e⟩],
              [(Notice.socketFailed host port e fault).event.within context]⟩ : Run Unit).followedBy
            ((connectAfter host port timeout (attempts + 1) rest).run net (sockets + 1) context)
        else ⟨(.error (.interrupted fault), rest), sockets + 1, context, [⟨sockets, .create e⟩], []⟩
      | none =>
        let opened := ⟨sockets, .create e⟩ ::
          openingSteps net (sockets + 1) timeout sockets e.address
        match (net.socket sockets).opening with
        | none =>
          ⟨(.ok sockets, rest), sockets + 1, context, opened,
            [(Notice.connected e (attempts + 1)).event.within context]⟩
        | some fault =>
          if fault.isExternal then
            (⟨(), sockets + 1, context, opened ++ [⟨sockets + 1, .close sockets⟩],
                [(Notice.connectFailed host port e fault).event.within context]⟩ :
              Run Unit).followedBy
              (match (net.socket sockets).close with
              | none =>
                (connectAfter host port timeout (attempts + 1) rest).run net (sockets + 1) context
              | some fault => ⟨(.error (.interrupted fault), rest), sockets + 1, context, [], []⟩)
          else ⟨(.error (.interrupted fault), rest), sockets + 1, context, opened, []⟩ := by
  -- the two calls that may fail, in the order in which they are made: what the stage does after
  -- each is given by what the network answers, and nothing else is looked at
  rw [connectAfter]
  cases hCreate : (net.socket sockets).create with
  | some fault =>
    have hAnswer : net.answer sockets (.create e) = .error fault :=
      Network.answerUnless_eq_error hCreate
    rw [Dialogue.run_ask_bind _ _ _ hAnswer]
    by_cases hExternal : fault.isExternal = true
    · simp [hExternal, Call.count, Run.followedBy]
    · simp [hExternal, Call.count, Run.followedBy]
  | none =>
    have hAnswer : net.answer sockets (.create e) = .ok sockets :=
      Network.answerUnless_eq_ok hCreate
    rw [Dialogue.run_ask_bind _ _ _ hAnswer]
    simp only [Dialogue.run_bind_eq, openSocket_run, Call.count]
    cases hOpening : (net.socket sockets).opening with
    | none => simp [Network.answerUnless, Run.followedBy]
    | some fault =>
      by_cases hExternal : fault.isExternal = true
      · -- the socket is closed before the next candidate, which may fail in turn
        cases hClose : (net.socket sockets).close with
        | none =>
          have hAnswer : net.answer (sockets + 1) (.close sockets) = .ok () :=
            Network.answerUnless_eq_ok hClose
          simp only [Network.answerUnless, hExternal, if_true]
          rw [Dialogue.run_bind_eq, note_run, Dialogue.run_ask_bind _ _ _ hAnswer]
          simp [Run.followedBy, Call.count]
        | some fault' =>
          have hAnswer : net.answer (sockets + 1) (.close sockets) = .error fault' :=
            Network.answerUnless_eq_error hClose
          simp only [Network.answerUnless, hExternal, if_true]
          rw [Dialogue.run_bind_eq, note_run, Dialogue.run_ask_bind _ _ _ hAnswer]
          simp [Run.followedBy, Call.count]
      · simp [Network.answerUnless, hExternal, Run.followedBy]

/-- A request is sent in one call. -/
theorem sendRequest_run (s : Nat) (request : Bytes) :
    (sendRequest s request).run net sockets context =
      match (net.socket s).send with
      | none =>
        ⟨.ok (), sockets, context, [⟨sockets, .send s request⟩],
          [(Notice.sent request.length).event.within context]⟩
      | some fault =>
        ⟨.error (if fault.isExternal then .unsent fault request.length else .interrupted fault),
          sockets, context, [⟨sockets, .send s request⟩], []⟩ := by
  unfold sendRequest
  cases hSend : (net.socket s).send with
  | none =>
    have hAnswer : net.answer sockets (.send s request) = .ok () := Network.answerUnless_eq_ok hSend
    rw [Dialogue.run_ask_bind _ _ _ hAnswer]
    rfl
  | some fault =>
    have hAnswer : net.answer sockets (.send s request) = .error fault :=
      Network.answerUnless_eq_error hSend
    rw [Dialogue.run_ask_bind _ _ _ hAnswer]
    dsimp only
    split <;> rfl

/-- What is received in one call is the reply, unless it is empty. -/
theorem receiveReply_run (s : Nat) (size : Int) :
    (receiveReply s size).run net sockets context =
      match (net.socket s).receive with
      | none =>
        let received := (net.socket s).reply.take size.toNat
        if received = [] then
          ⟨.error .closed, sockets, context, [⟨sockets, .receive s size⟩], []⟩
        else
          ⟨.ok received, sockets, context, [⟨sockets, .receive s size⟩],
            [(if size ≤ received.length then Notice.filled received.length size
              else Notice.received received.length).event.within context]⟩
      | some fault =>
        ⟨.error (if fault.isExternal then .unanswered fault else .interrupted fault),
          sockets, context, [⟨sockets, .receive s size⟩], []⟩ := by
  -- the buffer decides how much of the reply is received, so only an empty reply or an empty buffer
  -- leaves nothing
  unfold receiveReply
  cases hReceive : (net.socket s).receive with
  | none =>
    have hAnswer : net.answer sockets (.receive s size) =
        .ok ((net.socket s).reply.take size.toNat) := Network.answerUnless_eq_ok hReceive
    rw [Dialogue.run_ask_bind _ _ _ hAnswer]
    dsimp only
    split
    · next hEmpty =>
      rw [Except.ok.inj hEmpty]
      rfl
    · next received hNonempty hReceived =>
      obtain rfl := Except.ok.inj hReceived
      rw [if_neg hNonempty]
      split <;> rfl
    · next hFault => cases hFault
  | some fault =>
    have hAnswer : net.answer sockets (.receive s size) = .error fault :=
      Network.answerUnless_eq_error hReceive
    rw [Dialogue.run_ask_bind _ _ _ hAnswer]
    dsimp only
    split <;> rfl

/-- Reading a report makes no call. It ends in the report of the reply, after it has noted what
that leaves out, or in the reason why there is none. -/
theorem readReport_run (reply : Reply) :
    (readReport reply).run net sockets context =
      match reply.document with
      | .error fault => ⟨.error (.undecodable fault), sockets, context, [], []⟩
      | .ok o =>
        ⟨.ok (Report.ofDocument o), sockets, context, [],
          ((Report.diagnostics o).map fun d => (Notice.diagnostic d).event.within context) ++
            [(Notice.decoded (Report.ofDocument o).topicNames).event.within context]⟩ := by
  unfold readReport
  cases reply.document with
  | error fault => rfl
  | ok o => simp [Run.followedBy, Function.comp_def]

/-- What a report is read as does not depend on the network. -/
theorem readReport_result (reply : Reply) :
    ((readReport reply).run net sockets context).result =
      (Report.ofReply reply).mapError .undecodable := by
  rw [readReport_run, Report.ofReply]
  cases reply.document <;> rfl

end Exchange

end OscMonitor
