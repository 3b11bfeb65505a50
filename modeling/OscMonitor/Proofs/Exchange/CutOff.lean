import OscMonitor.Exchange.Basic
import OscMonitor.Proofs.Exchange.Stages
import OscMonitor.Proofs.Reply.CutOff

/-!
# Exchanges with replies that are cut off

An exchange receives its reply in one call, so a reply that is longer than the buffer is cut off.
Nothing but the reading of it tells. A reply of which the object itself is cut off is refused, and
one that only lacks terminators is read as if it were whole; either way the log says that the
buffer was filled.

* `connectAfter_run_of_declines` — the first candidate that is not passed over is connected to.
* `exchange_of_delivers` — on a network that delivers a reply, an exchange ends in what the first
  bytes of the reply are read as.
* `ofReply_take_iff_whole` — it ends in a report exactly when the buffer holds all that matters.
-/

namespace OscMonitor

namespace SocketBehaviour

/-- A candidate that is passed over: the socket cannot be created, or it cannot be opened and is
closed again. -/
def Declines (b : SocketBehaviour) : Prop :=
  (∃ fault, b.create = some fault ∧ fault.isExternal = true) ∨
    (b.create = none ∧ b.close = none ∧ ∃ fault, b.opening = some fault ∧ fault.isExternal = true)

/-- A candidate whose daemon takes a request and answers with a reply. -/
structure Serves (b : SocketBehaviour) (reply : Bytes) : Prop where
  create : b.create = none
  opening : b.opening = none
  send : b.send = none
  receive : b.receive = none
  close : b.close = none
  reply_eq : b.reply = reply

end SocketBehaviour

/-- A network on which the first candidate that is not passed over serves a reply, when `sockets`
sockets have been asked for before. -/
def Network.Delivers (net : Network) (sockets : Nat) (reply : Bytes) : Prop :=
  ∃ endpoints i, net.lookup = .ok endpoints ∧ i < endpoints.length ∧
    (∀ j < i, (net.socket (sockets + j)).Declines) ∧ (net.socket (sockets + i)).Serves reply

namespace Exchange

variable (net : Network) (sockets : Nat) (context : Log.Context)
variable (host : Option Text) (port : Text) (timeout : Timeout) (action : Action) (size : Int)

/-- The first candidate that is not passed over is connected to. -/
theorem connectAfter_run_of_declines (attempts : Nat) {endpoints : List Endpoint} {i : Nat}
    (hi : i < endpoints.length) (hDeclines : ∀ j < i, (net.socket (sockets + j)).Declines)
    (hCreate : (net.socket (sockets + i)).create = none)
    (hOpening : (net.socket (sockets + i)).opening = none) :
    let run := (connectAfter host port timeout attempts endpoints).run net sockets context
    run.result.1 = .ok (sockets + i) ∧ run.context = context := by
  induction endpoints generalizing sockets attempts i with
  | nil => exact absurd hi (Nat.not_lt_zero _)
  | cons e rest ih =>
    intro run
    cases i with
    | zero =>
      simp only [run, connectAfter_run_cons]
      rw [Nat.add_zero] at hCreate hOpening
      rw [hCreate]
      dsimp only
      rw [hOpening]
      exact ⟨rfl, rfl⟩
    | succ i =>
      -- the rest of the candidates get the sockets from the next one on
      have hShift : ∀ j, sockets + (j + 1) = sockets + 1 + j := by
        intro j
        omega
      rw [hShift] at hCreate hOpening ⊢
      have hShifted : ∀ j < i, (net.socket (sockets + 1 + j)).Declines := by
        intro j hj
        rw [← hShift]
        exact hDeclines (j + 1) (by omega)
      have hRest := ih (sockets + 1) (attempts + 1) (Nat.lt_of_succ_lt_succ hi) hShifted hCreate
        hOpening
      have hFirst := hDeclines 0 (Nat.succ_pos i)
      rw [Nat.add_zero] at hFirst
      simp only [run, connectAfter_run_cons]
      rcases hFirst with ⟨fault, hFault, hExternal⟩ | ⟨hNone, hClose, fault, hFault, hExternal⟩
      · simp only [hFault, if_pos hExternal]
        exact hRest
      · simp only [hNone, hFault, if_pos hExternal, hClose]
        exact hRest

/-- What is received from a daemon that serves is read as a report, and when it fills the buffer
the log says so. -/
theorem onSocket_run_of_serves {s : Nat} {reply : Bytes} (h : (net.socket s).Serves reply)
    (hNonempty : reply.take size.toNat ≠ []) :
    let received := reply.take size.toNat
    let run := (onSocket s action size).run net sockets context
    run.result = (Report.ofReply (.bytes received)).mapError .undecodable ∧
      (size ≤ received.length →
        (Notice.filled received.length size).event.within context ∈ run.events) := by
  intro received run
  have hReceive := receiveReply_run net sockets context s size
  rw [h.receive, h.reply_eq] at hReceive
  simp only [if_neg hNonempty] at hReceive
  -- the request is sent and the reply received, without a fault
  have hConverse : (converse s action size).run net sockets context =
      ⟨.ok received, sockets, context,
        [⟨sockets, .send s action.toBytes⟩, ⟨sockets, .receive s size⟩],
        [(Notice.sent action.toBytes.length).event.within context,
          (if size ≤ received.length then Notice.filled received.length size
            else Notice.received received.length).event.within context]⟩ := by
    rw [converse, Dialogue.run_bind_eq, sendRequest_run, h.send]
    dsimp only
    rw [hReceive]
    rfl
  have hClose : net.answer sockets (.close s) = .ok () := Network.answerUnless_eq_ok h.close
  -- the socket is closed before the reply is read
  have hRun : run = ((converse s action size).run net sockets context).followedBy
      ((⟨(), sockets, context, [⟨sockets, .close s⟩], []⟩ : Run Unit).followedBy
        ((readReport (.bytes received)).run net sockets context)) := by
    simp only [run]
    rw [onSocket, Dialogue.run_bind_eq, hConverse]
    dsimp only
    rw [Dialogue.run_ask_bind _ _ _ hClose]
    rfl
  rw [hRun, hConverse]
  refine ⟨readReport_result net sockets context _, fun hFilled => ?_⟩
  rw [if_pos hFilled]
  simp

/-- An exchange runs as its stages do while it is bound. -/
theorem exchange_run (settings : Settings) (port : Port) (limit : Option Int) :
    (exchange settings host port action timeout limit).run net sockets context =
      let run := (unbound host port.text action (timeoutFor settings timeout)
        (limit.getD settings.bufferSize)).run net sockets
          (context.enter (.ofTarget host port.text action.name))
      { run with context := run.context.leave } := by
  rw [exchange, Dialogue.run_bind_eq, Dialogue.run_bind_eq]
  show Run.followedBy ⟨(), sockets, _, [], []⟩ (Run.followedBy _ ⟨_, _, _, [], []⟩) = _
  simp only [Run.followedBy, List.append_nil, List.nil_append]
  rfl

/-- On a network that delivers a reply, an exchange ends in what its first bytes are read as. -/
theorem exchange_of_delivers (settings : Settings) (port : Port) (limit : Option Int)
    {reply : Bytes} (h : net.Delivers sockets reply)
    (hSize : limit.getD settings.bufferSize = size) (hNonempty : reply.take size.toNat ≠ []) :
    let received := reply.take size.toNat
    let run := (exchange settings host port action timeout limit).run net sockets context
    run.result = (Report.ofReply (.bytes received)).mapError .undecodable ∧
      (size ≤ received.length → ∃ bound,
        (Notice.filled received.length size).event.within bound ∈ run.events) := by
  intro received run
  obtain ⟨endpoints, i, hLookup, hi, hDeclines, hServes⟩ := h
  simp only [run, exchange_run, hSize]
  -- what is bound and how long each call may take make no difference
  generalize context.enter (.ofTarget host port.text action.name) = bound
  generalize timeoutFor settings timeout = timeout
  obtain ⟨hSocket, hContext⟩ := connectAfter_run_of_declines net sockets bound host port.text
    timeout 0 hi hDeclines hServes.create hServes.opening
  rw [unbound, Dialogue.run_bind_eq, resolve_run, hLookup]
  dsimp only
  rw [Dialogue.run_bind_eq, connectFirst, hSocket, hContext]
  generalize ((connectAfter host port.text timeout 0 endpoints).run net sockets bound) = connected
  obtain ⟨hResult, hFilled⟩ :=
    onSocket_run_of_serves net connected.sockets bound action size hServes hNonempty
  dsimp only
  rw [Dialogue.run_bind_eq]
  generalize (onSocket (sockets + i) action size).run net connected.sockets bound = onSocket
    at hResult hFilled
  refine ⟨?_, fun hFull => ⟨bound, ?_⟩⟩
  · -- what is logged at the end leaves the result as it is
    rw [← hResult]
    simp only [Run.followedBy_result]
    cases onSocket.result <;> rfl
  · simp only [Run.followedBy_events, List.mem_append]
    exact .inr (.inr (.inl (hFilled hFull)))

end Exchange

open Exchange

namespace Report

/-- The first bytes of a reply give the report of the whole reply when all that matter are among
them, and else none. -/
theorem ofReply_take {d : Bytes} {report : Report} (h : ofReply (.bytes d) = .ok report) (n : Nat) :
    if (Reply.trimBytes d).length ≤ n then ofReply (.bytes (d.take n)) = .ok report
    else ∃ fault, ofReply (.bytes (d.take n)) = .error fault := by
  obtain ⟨o, hDocument, rfl⟩ := ofReply_eq_ok_iff.mp h
  have hTake := Reply.document_take hDocument n
  by_cases hAll : (Reply.trimBytes d).length ≤ n
  · rw [if_pos hAll] at hTake ⊢
    exact ofReply_eq_ok_iff.mpr ⟨o, hTake, rfl⟩
  · rw [if_neg hAll] at hTake ⊢
    obtain ⟨fault, hFault⟩ := hTake
    refine ⟨fault, ?_⟩
    rw [ofReply, hFault]
    rfl

/-- Nothing is no reply. -/
theorem ofReply_nil_ne (report : Report) : ofReply (.bytes []) ≠ .ok report := by
  intro h
  obtain ⟨o, hDocument, -⟩ := ofReply_eq_ok_iff.mp h
  exact absurd hDocument (Reply.document_nil_ne o)

/-- **A reply that is cut off is never taken for a report.** A beginning of a reply that lacks a
part of what matters in it is refused. So an exchange with a daemon that delivers the reply ends
in a report exactly when the buffer holds all that matters, and then in the report of the whole
reply; and when anything is cut off the log warns, by name, that the reply may be truncated. What
is bound while the exchange runs may add fields to that event, but it does not change its name or
its level. -/
theorem ofReply_take_iff_whole {d : Bytes} {report : Report}
    (h : ofReply (.bytes d) = .ok report) :
    (∀ p, p <+: Reply.trimBytes d → p ≠ Reply.trimBytes d →
      ∃ fault, ofReply (.bytes p) = .error fault ∧
        fault.failure.code = some (Text.ofString "DECODE_ERROR")) ∧
    ∀ (net : Network) (sockets : Nat) (context : Log.Context) (settings : Settings)
      (host : Option Text) (port : Port) (action : Action) (timeout : Timeout)
      (limit : Option Int),
      net.Delivers sockets d → 1 ≤ limit.getD settings.bufferSize →
      let size := limit.getD settings.bufferSize
      let run := (exchange settings host port action timeout limit).run net sockets context
      ((∃ r, run.result = .ok r) ↔ (Reply.trimBytes d).length ≤ size) ∧
        (∀ r, run.result = .ok r → r = report) ∧
        (size < d.length → ∃ e ∈ run.events,
          e.level = .warning ∧ e.name = "transport.reply_may_be_truncated" ∧
            ∃ bound, e = (Notice.filled size.toNat size).event.within bound) := by
  obtain ⟨o, hDocument, rfl⟩ := ofReply_eq_ok_iff.mp h
  constructor
  · intro p hp hne
    cases hCut : ofReply (.bytes p) with
    | error fault => exact ⟨fault, rfl, fault.failure_code⟩
    | ok r =>
      obtain ⟨o', hDocument', -⟩ := ofReply_eq_ok_iff.mp hCut
      exact absurd (Reply.eq_trimBytes_of_document hDocument hp hDocument') hne
  intro net sockets context settings host port action timeout limit hDelivers hPositive size run
  -- something is received, as the buffer has room and nothing is no reply
  have hNonempty : d.take size.toNat ≠ [] := by
    rw [Ne, List.take_eq_nil_iff, not_or]
    refine ⟨by omega, ?_⟩
    rintro rfl
    exact absurd h (ofReply_nil_ne _)
  obtain ⟨hResult, hFilled⟩ := exchange_of_delivers net sockets context host timeout action size
    settings port limit hDelivers rfl hNonempty
  change run.result = _ at hResult
  have hTake := ofReply_take h size.toNat
  refine ⟨?_, fun r hr => ?_, fun hCut => ?_⟩
  · by_cases hAll : (Reply.trimBytes d).length ≤ size.toNat
    · rw [if_pos hAll] at hTake
      rw [hResult, hTake]
      exact iff_of_true ⟨_, rfl⟩ (by omega)
    · rw [if_neg hAll] at hTake
      obtain ⟨fault, hFault⟩ := hTake
      rw [hResult, hFault]
      refine iff_of_false ?_ (by omega)
      rintro ⟨r, hr⟩
      cases hr
  · split at hTake
    · rw [hResult, hTake] at hr
      exact (Except.ok.inj hr).symm
    · obtain ⟨fault, hFault⟩ := hTake
      rw [hResult, hFault] at hr
      cases hr
  · -- a reply that is longer than the buffer fills it
    have hLength : (d.take size.toNat).length = size.toNat := by
      rw [List.length_take]
      omega
    rw [hLength] at hFilled
    obtain ⟨bound, hEvent⟩ := hFilled (by omega)
    exact ⟨_, hEvent, rfl, rfl, bound, rfl⟩

/-- A reply of two brackets and a line end, from the second of two candidates, into a buffer that
lacks room for the line end. -/
theorem ofReply_take_iff_whole_of_brackets :
    let reply : Bytes := [0x7B, 0x7D, 0x0A]
    let refused : SocketBehaviour := { connect := some ⟨.system, some 111, "Connection refused"⟩ }
    let candidate : Endpoint := ⟨.v4 "127.0.0.1" 2958, Endpoint.stream, Endpoint.tcp⟩
    let net : Network :=
      ⟨.ok [candidate, candidate], fun n => if n = 0 then refused else { reply := reply }, .null⟩
    let run := (exchange {} none (.number 2958) .status none (some 2)).run net 0 []
    ofReply (.bytes reply) = .ok (ofDocument []) ∧ net.Delivers 0 reply ∧
      run.result = .ok (ofDocument []) ∧
      ∃ e ∈ run.events, e.name = "transport.reply_may_be_truncated" := by
  intro reply refused candidate net run
  have hReply : ofReply (.bytes reply) = .ok (ofDocument []) := by
    have hDocument : Reply.document (.bytes reply) = .ok [] := by cbv
    exact ofReply_eq_ok_iff.mpr ⟨[], hDocument, rfl⟩
  -- the first candidate refuses, and is closed
  have hDelivers : net.Delivers 0 reply := by
    refine ⟨[candidate, candidate], 1, rfl, by decide, ?_, ⟨rfl, rfl, rfl, rfl, rfl, rfl⟩⟩
    intro j hj
    obtain rfl : j = 0 := by omega
    exact .inr ⟨rfl, rfl, _, rfl, rfl⟩
  obtain ⟨hIff, hReport, hFilled⟩ :=
    (ofReply_take_iff_whole hReply).2 net 0 [] {} none (.number 2958) .status none (some 2)
      hDelivers (by decide)
  obtain ⟨r, hr⟩ := hIff.mpr (by decide)
  obtain ⟨e, he, -, hName, -⟩ := hFilled (by decide)
  refine ⟨hReply, hDelivers, ?_, e, he, hName⟩
  rw [← hReport r hr]
  exact hr

end Report

end OscMonitor
