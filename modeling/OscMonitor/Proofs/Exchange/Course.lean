import OscMonitor.Proofs.Exchange.CutOff

/-!
# The course of an exchange

Which calls an exchange makes, in order, and what it ends in, by the behaviour of the network alone.
There is one lookup; then the candidates in the order of the lookup, each with a socket of its own
that is closed again before the next one is created; and then, on the first socket that connects,
one request, one reply if the request was sent, and the close. A close that fails ends the exchange
with its own fault, since no stage expects one.

* `connectAfter_course` — the candidates that are tried, the calls on them, and where that ends.
* `onSocket_course` — the calls on a connected socket, and what they end in.
* `exchange_course` — the calls of an exchange, and the stage at which it fails.
-/

namespace OscMonitor

/-- The faults that calls on a socket end in. -/
def SocketBehaviour.faults (b : SocketBehaviour) : List Fault :=
  [b.create, b.setTimeout, b.connect, b.send, b.receive, b.close].flatMap Option.toList

/-- Every fault of a network comes from the system, the network or the peer; a lookup may also be
refused because of the name. -/
structure Network.FaultsExternal (net : Network) : Prop where
  lookup : ∀ fault, net.lookup = .error fault → fault.isExternal = true ∨ fault.kind = .encoding
  socket : ∀ s, ∀ fault ∈ (net.socket s).faults, fault.isExternal = true

namespace Network.FaultsExternal

variable {net : Network} (h : net.FaultsExternal) {s : Nat} {fault : Fault}
include h

theorem create (hFault : (net.socket s).create = some fault) : fault.isExternal = true :=
  h.socket s fault (by simp [SocketBehaviour.faults, hFault])

theorem send (hFault : (net.socket s).send = some fault) : fault.isExternal = true :=
  h.socket s fault (by simp [SocketBehaviour.faults, hFault])

theorem receive (hFault : (net.socket s).receive = some fault) : fault.isExternal = true :=
  h.socket s fault (by simp [SocketBehaviour.faults, hFault])

theorem opening (hFault : (net.socket s).opening = some fault) : fault.isExternal = true := by
  refine h.socket s fault ?_
  rcases Option.or_eq_some_iff.mp hFault with hTimeout | ⟨-, hConnect⟩
  · simp [SocketBehaviour.faults, hTimeout]
  · simp [SocketBehaviour.faults, hConnect]

end Network.FaultsExternal

/-! ## The calls on a socket -/

namespace SocketBehaviour

variable (b : SocketBehaviour)

/-- A candidate that connects. -/
def Connects : Prop := b.create = none ∧ b.opening = none

/-- Whether no candidate is tried after this one: it connects, or its socket cannot be closed. -/
def stops : Bool := b.create.isNone && (b.opening.isNone || b.close.isSome)

/-- The calls that try a candidate: the socket is created, given its time limit and connected, each
if the call before succeeds, and closed if it exists but is not connected. -/
def attempt (timeout : Timeout) (s : Nat) (e : Endpoint) : List Call :=
  .create e ::
    if b.create.isSome then []
    else .setTimeout s timeout ::
      ((if b.setTimeout.isNone then [.connect s e.address] else []) ++
        if b.opening.isSome then [.close s] else [])

/-- The calls on a connected socket: a request, a reply if the request is sent, and the close. -/
def conversation (action : Action) (size : Int) (s : Nat) : List Call :=
  .send s action.toBytes ::
    ((if b.send.isNone then [.receive s size] else []) ++ [.close s])

/-- What is received. -/
def received (size : Int) : Bytes := b.reply.take size.toNat

/-- What comes of a request on a connected socket. -/
def reply? (action : Action) (size : Int) : Except ExchangeFault Bytes :=
  match b.send with
  | some fault =>
    .error (if fault.isExternal then .unsent fault action.toBytes.length else .interrupted fault)
  | none =>
    match b.receive with
    | some fault => .error (if fault.isExternal then .unanswered fault else .interrupted fault)
    | none => if b.received size = [] then .error .closed else .ok (b.received size)

/-- What comes of a connected socket: the report of what is received, unless the close fails. -/
def outcome (action : Action) (size : Int) : Except ExchangeFault Report :=
  match b.close with
  | some fault => .error (.interrupted fault)
  | none =>
    (b.reply? action size).bind fun reply => (Report.ofReply (.bytes reply)).mapError .undecodable

end SocketBehaviour

namespace Network

variable (net : Network)

/-- The candidates that are tried, each with its socket. -/
def tried (sockets : Nat) : List Endpoint → List (Nat × Endpoint)
  | [] => []
  | e :: rest =>
    (sockets, e) :: if (net.socket sockets).stops then [] else tried (sockets + 1) rest

/-- The calls that try the candidates. -/
def attempts (sockets : Nat) (timeout : Timeout) (endpoints : List Endpoint) : List Call :=
  (net.tried sockets endpoints).flatMap fun (s, e) => (net.socket s).attempt timeout s e

variable {net} in
theorem attempts_cons_of_stops {sockets : Nat} (h : (net.socket sockets).stops = true)
    (timeout : Timeout) (e : Endpoint) (rest : List Endpoint) :
    net.attempts sockets timeout (e :: rest) = (net.socket sockets).attempt timeout sockets e := by
  simp [attempts, tried, h]

variable {net} in
theorem attempts_cons_of_not_stops {sockets : Nat} (h : (net.socket sockets).stops = false)
    (timeout : Timeout) (e : Endpoint) (rest : List Endpoint) :
    net.attempts sockets timeout (e :: rest) =
      (net.socket sockets).attempt timeout sockets e ++
        net.attempts (sockets + 1) timeout rest := by
  simp [attempts, tried, h]

/-- How the candidates end: with a socket that connects, with one that cannot be closed, or with
none. -/
inductive SearchEnd where
  | connected (s : Nat)
  | broken (fault : Fault)
  | exhausted

/-- How the candidates end. -/
def search (sockets : Nat) : List Endpoint → SearchEnd
  | [] => .exhausted
  | _ :: rest =>
    match (net.socket sockets).create, (net.socket sockets).opening, (net.socket sockets).close with
    | some _, _, _ => search (sockets + 1) rest
    | none, none, _ => .connected sockets
    | none, some _, none => search (sockets + 1) rest
    | none, some _, some fault => .broken fault

theorem search_cons_of_not_stops {sockets : Nat} (h : (net.socket sockets).stops = false)
    (e : Endpoint) (rest : List Endpoint) :
    net.search sockets (e :: rest) = net.search (sockets + 1) rest := by
  rw [search]
  cases hCreate : (net.socket sockets).create with
  | some fault => rfl
  | none =>
    cases hOpening : (net.socket sockets).opening with
    | none => simp [SocketBehaviour.stops, hCreate, hOpening] at h
    | some fault =>
      cases hClose : (net.socket sockets).close with
      | none => rfl
      | some fault' => simp [SocketBehaviour.stops, hCreate, hClose] at h

/-- The calls of an exchange. -/
def course (sockets : Nat) (host : Option Text) (port : Text) (timeout : Timeout) (action : Action)
    (size : Int) : List Call :=
  .lookup host port ::
    match net.lookup with
    | .error _ => []
    | .ok endpoints =>
      net.attempts sockets timeout endpoints ++
        match net.search sockets endpoints with
        | .connected s => (net.socket s).conversation action size s
        | _ => []

end Network

namespace Exchange

variable (net : Network) (sockets : Nat) (context : Log.Context)
variable (host : Option Text) (port : Text) (timeout : Timeout) (action : Action) (size : Int)

theorem map_call_openingSteps (s : Nat) (a : Address) :
    (openingSteps net sockets timeout s a).map Step.call =
      .setTimeout s timeout :: if (net.socket s).setTimeout.isNone then [.connect s a] else [] := by
  unfold openingSteps
  split <;> rfl

/-- The candidates are tried one after the other until one connects or a socket cannot be closed. -/
theorem connectAfter_course (h : net.FaultsExternal) (attempts : Nat) (endpoints : List Endpoint) :
    let run := (connectAfter host port timeout attempts endpoints).run net sockets context
    run.steps.map Step.call = net.attempts sockets timeout endpoints ∧ run.context = context ∧
      run.result.1 = match net.search sockets endpoints with
        | .connected s => .ok s
        | .broken fault => .error (.interrupted fault)
        | .exhausted => .error (.unreachable host port (attempts + endpoints.length)) := by
  induction endpoints generalizing sockets attempts with
  | nil => exact ⟨rfl, rfl, rfl⟩
  | cons e rest ih =>
    intro run
    have hRun : run = _ :=
      connectAfter_run_cons net sockets context host port timeout attempts e rest
    -- how the stage goes on after a candidate that is passed over
    obtain ⟨hSteps, hContext, hResult⟩ := ih (sockets + 1) (attempts + 1)
    have hLength : attempts + 1 + rest.length = attempts + (e :: rest).length := by
      rw [List.length_cons]
      omega
    rw [hLength] at hResult
    rw [hRun, Network.search]
    cases hCreate : (net.socket sockets).create with
    | some fault =>
      rw [Network.attempts_cons_of_not_stops (by simp [SocketBehaviour.stops, hCreate])]
      simp only [if_pos (h.create hCreate)]
      refine ⟨?_, hContext, hResult⟩
      rw [Run.followedBy_steps, List.map_append, hSteps]
      simp [SocketBehaviour.attempt, hCreate]
    | none =>
      cases hOpening : (net.socket sockets).opening with
      | none =>
        rw [Network.attempts_cons_of_stops (by simp [SocketBehaviour.stops, hCreate, hOpening])]
        refine ⟨?_, rfl, rfl⟩
        simp [SocketBehaviour.attempt, hCreate, hOpening, map_call_openingSteps]
      | some fault =>
        simp only [if_pos (h.opening hOpening)]
        cases hClose : (net.socket sockets).close with
        | none =>
          rw [Network.attempts_cons_of_not_stops
            (by simp [SocketBehaviour.stops, hOpening, hClose])]
          refine ⟨?_, hContext, hResult⟩
          rw [Run.followedBy_steps, List.map_append, hSteps]
          simp [SocketBehaviour.attempt, hCreate, hOpening, map_call_openingSteps]
        | some fault' =>
          rw [Network.attempts_cons_of_stops (by simp [SocketBehaviour.stops, hCreate, hClose])]
          refine ⟨?_, rfl, rfl⟩
          simp [SocketBehaviour.attempt, hCreate, hOpening, map_call_openingSteps]

/-- The calls on a connected socket, and what comes of the request before the socket is closed. -/
theorem converse_course (s : Nat) :
    let run := (converse s action size).run net sockets context
    run.steps = ⟨sockets, .send s action.toBytes⟩ ::
        (if (net.socket s).send.isNone then [⟨sockets, .receive s size⟩] else []) ∧
      run.sockets = sockets ∧ run.context = context ∧
      run.result = (net.socket s).reply? action size := by
  intro run
  have hRun : run = _ := Dialogue.run_bind_eq net sockets context (sendRequest s action.toBytes) _
  -- one case for each of the three ways in which there may be no reply: the request is not sent,
  -- nothing is received, what is received is empty
  rw [hRun, sendRequest_run, SocketBehaviour.reply?]
  cases hSend : (net.socket s).send with
  | some fault => exact ⟨rfl, rfl, rfl, rfl⟩
  | none =>
    dsimp only
    rw [receiveReply_run]
    cases hReceive : (net.socket s).receive with
    | some fault => exact ⟨rfl, rfl, rfl, rfl⟩
    | none =>
      dsimp only
      by_cases hEmpty : (net.socket s).received size = []
      · rw [if_pos hEmpty, if_pos (show (net.socket s).reply.take size.toNat = [] from hEmpty)]
        exact ⟨rfl, rfl, rfl, rfl⟩
      · rw [if_neg hEmpty, if_neg (show (net.socket s).reply.take size.toNat ≠ [] from hEmpty)]
        exact ⟨rfl, rfl, rfl, rfl⟩

/-- A connected socket is closed whatever comes of the request, and the reply is read after that. -/
theorem onSocket_course (s : Nat) :
    let run := (onSocket s action size).run net sockets context
    run.steps = ⟨sockets, .send s action.toBytes⟩ ::
        ((if (net.socket s).send.isNone then [⟨sockets, .receive s size⟩] else []) ++
          [⟨sockets, .close s⟩]) ∧
      run.sockets = sockets ∧ run.context = context ∧
      run.result = (net.socket s).outcome action size := by
  intro run
  obtain ⟨hSteps, hSockets, hContext, hResult⟩ :=
    converse_course net sockets context action size s
  have hRun : run = _ := Dialogue.run_bind_eq net sockets context (converse s action size) _
  rw [hRun, Run.followedBy_steps, Run.followedBy_sockets, Run.followedBy_context,
    Run.followedBy_result, hSteps, hSockets, hContext, hResult, SocketBehaviour.outcome]
  -- the reply is read only once the socket is closed
  cases hClose : (net.socket s).close with
  | some fault =>
    have hAnswer : net.answer sockets (.close s) = .error fault :=
      Network.answerUnless_eq_error hClose
    rw [Dialogue.run_ask_bind _ _ _ hAnswer]
    exact ⟨rfl, rfl, rfl, rfl⟩
  | none =>
    have hAnswer : net.answer sockets (.close s) = .ok () := Network.answerUnless_eq_ok hClose
    rw [Dialogue.run_ask_bind _ _ _ hAnswer]
    cases (net.socket s).reply? action size with
    | error fault => exact ⟨rfl, rfl, rfl, rfl⟩
    | ok reply =>
      refine ⟨?_, ?_, ?_, readReport_result net _ _ _⟩
      all_goals
        dsimp only
        rw [readReport_run]
        cases (Reply.bytes reply).document <;> rfl

/-- The calls of an exchange without its frame in the log, and what they end in. -/
theorem unbound_course (h : net.FaultsExternal) :
    let run := (unbound host port action timeout size).run net sockets context
    run.steps.map Step.call = net.course sockets host port timeout action size ∧
      run.result = match net.lookup with
        | .error fault => .error (.unresolved host port fault)
        | .ok endpoints =>
          match net.search sockets endpoints with
          | .connected s => (net.socket s).outcome action size
          | .broken fault => .error (.interrupted fault)
          | .exhausted => .error (.unreachable host port endpoints.length) := by
  intro run
  have hRun : run = _ := Dialogue.run_bind_eq net sockets context (resolve host port) _
  rw [hRun, resolve_run, Network.course]
  cases hLookup : net.lookup with
  | error fault =>
    have hFault : (fault.isExternal || fault.kind == .encoding) = true := by
      rw [Bool.or_eq_true, beq_iff_eq]
      exact h.lookup fault hLookup
    dsimp only
    rw [if_pos hFault]
    exact ⟨rfl, rfl⟩
  | ok endpoints =>
    dsimp only
    obtain ⟨hSteps, hContext, hResult⟩ :=
      connectAfter_course net sockets context host port timeout h 0 endpoints
    rw [Nat.zero_add] at hResult
    rw [Dialogue.run_bind_eq, connectFirst, hResult, hContext]
    generalize (connectAfter host port timeout 0 endpoints).run net sockets context = tried
      at hSteps
    cases hSearch : net.search sockets endpoints with
    | broken fault => simp [hSteps]
    | exhausted => simp [hSteps]
    | connected s =>
      obtain ⟨hCalls, -, -, hOutcome⟩ := onSocket_course net tried.sockets context action size s
      dsimp only
      rw [Dialogue.run_bind_eq]
      generalize (onSocket s action size).run net tried.sockets context = onSocket
        at hCalls hOutcome
      rw [← hOutcome]
      -- what is logged at the end adds no call and leaves the result as it is
      have hEnd : onSocket.steps.map Step.call = (net.socket s).conversation action size s := by
        rw [hCalls, SocketBehaviour.conversation]
        cases (net.socket s).send <;> rfl
      simp only [Run.followedBy_steps, Run.followedBy_result, List.map_append, hSteps, hEnd]
      cases onSocket.result with
      | error fault => exact ⟨by simp, rfl⟩
      | ok report => exact ⟨by simp, rfl⟩

end Exchange

/-! ## Where the candidates end -/

namespace SocketBehaviour

variable {b : SocketBehaviour} {timeout : Timeout} {s : Nat} {e : Endpoint}

theorem close_mem_attempt_iff {n : Nat} :
    Call.close n ∈ b.attempt timeout s e ↔ n = s ∧ b.create = none ∧ b.opening ≠ none := by
  unfold attempt
  cases hCreate : b.create <;> cases hOpening : b.opening <;> cases b.setTimeout <;> simp

/-- A candidate that does not connect is passed over if its socket can be closed. -/
theorem stops_eq_false (h : ¬ b.Connects)
    (hClose : b.create = none → b.opening ≠ none → b.close = none) : b.stops = false := by
  unfold stops
  cases hCreate : b.create with
  | some fault => rfl
  | none =>
    have hOpening : b.opening ≠ none := fun hNone => h ⟨hCreate, hNone⟩
    rw [hClose hCreate hOpening,
      Option.isNone_eq_false_iff.mpr (Option.isSome_iff_ne_none.mpr hOpening)]
    rfl

end SocketBehaviour

namespace Network

variable {net : Network} {sockets : Nat} {timeout : Timeout} {endpoints : List Endpoint}

/-- When every socket that is closed can be closed, the candidates end with the first that connects,
or with none if none does. -/
theorem search_of_closes
    (h : ∀ s, Call.close s ∈ net.attempts sockets timeout endpoints → (net.socket s).close = none) :
    (∃ i < endpoints.length, net.search sockets endpoints = .connected (sockets + i) ∧
        (net.socket (sockets + i)).Connects ∧ ∀ j < i, ¬ (net.socket (sockets + j)).Connects) ∨
      net.search sockets endpoints = .exhausted ∧
        ∀ i < endpoints.length, ¬ (net.socket (sockets + i)).Connects := by
  induction endpoints generalizing sockets with
  | nil => exact .inr ⟨rfl, fun i hi => absurd hi (Nat.not_lt_zero i)⟩
  | cons e rest ih =>
    by_cases hConnects : (net.socket sockets).Connects
    · refine .inl ⟨0, Nat.succ_pos _, ?_, hConnects, fun j hj => absurd hj (Nat.not_lt_zero j)⟩
      rw [search, hConnects.1, hConnects.2]
      rfl
    -- the candidate is passed over: its socket is closed if there is one, and can be
    have hStops : (net.socket sockets).stops = false := by
      have hClose : (net.socket sockets).create = none → (net.socket sockets).opening ≠ none →
          (net.socket sockets).close = none := by
        intro hCreate hOpening
        refine h sockets ?_
        rw [attempts, tried, List.flatMap_cons]
        exact List.mem_append_left _
          (SocketBehaviour.close_mem_attempt_iff.mpr ⟨rfl, hCreate, hOpening⟩)
      exact SocketBehaviour.stops_eq_false hConnects hClose
    have hShift : ∀ i, sockets + 1 + i = sockets + (i + 1) := by
      intro i
      omega
    rw [attempts_cons_of_not_stops hStops] at h
    rw [search_cons_of_not_stops net hStops]
    rcases ih fun s hs => h s (List.mem_append_right _ hs) with
      ⟨i, hi, hSearch, hReached, hBefore⟩ | ⟨hSearch, hNone⟩
    · refine .inl ⟨i + 1, Nat.succ_lt_succ hi, ?_, ?_, fun j hj => ?_⟩
      · rw [hSearch, hShift]
      · rwa [← hShift]
      · cases j with
        | zero => exact hConnects
        | succ j =>
          rw [← hShift]
          exact hBefore j (Nat.lt_of_succ_lt_succ hj)
    · refine .inr ⟨hSearch, fun i hi => ?_⟩
      cases i with
      | zero => exact hConnects
      | succ i =>
        rw [← hShift]
        exact hNone i (Nat.lt_of_succ_lt_succ hi)

/-- A candidate's socket that cannot be closed ends the candidates. -/
theorem search_eq_broken {s : Nat} {fault : Fault}
    (h : Call.close s ∈ net.attempts sockets timeout endpoints)
    (hClose : (net.socket s).close = some fault) :
    net.search sockets endpoints = .broken fault := by
  -- on the candidates: the socket that cannot be closed is that of the first or of another one
  induction endpoints generalizing sockets with
  | nil => cases h
  | cons e rest ih =>
    cases hStops : (net.socket sockets).stops with
    | false =>
      rw [attempts_cons_of_not_stops hStops, List.mem_append] at h
      rw [search_cons_of_not_stops net hStops]
      rcases h with hHere | hLater
      · -- it would have been closed here, and would have ended the candidates
        obtain ⟨rfl, hCreate, hOpening⟩ := SocketBehaviour.close_mem_attempt_iff.mp hHere
        simp [SocketBehaviour.stops, hCreate, hClose] at hStops
      · exact ih hLater
    | true =>
      rw [attempts_cons_of_stops hStops] at h
      obtain ⟨rfl, hCreate, hOpening⟩ := SocketBehaviour.close_mem_attempt_iff.mp h
      obtain ⟨fault', hFault⟩ := Option.ne_none_iff_exists'.mp hOpening
      rw [search, hCreate, hFault, hClose]

/-- The first candidate that connects does so on a socket. -/
def Reaches (net : Network) (sockets s : Nat) : Prop :=
  ∃ endpoints i, net.lookup = .ok endpoints ∧ i < endpoints.length ∧ s = sockets + i ∧
    (net.socket s).Connects ∧ ∀ j < i, ¬ (net.socket (sockets + j)).Connects

theorem Reaches.eq {s s' : Nat} (h : net.Reaches sockets s) (h' : net.Reaches sockets s') :
    s = s' := by
  obtain ⟨_, i, -, -, rfl, hConnects, hBefore⟩ := h
  obtain ⟨_, i', -, -, rfl, hConnects', hBefore'⟩ := h'
  rcases Nat.lt_trichotomy i i' with hLt | rfl | hGt
  · exact absurd hConnects (hBefore' i hLt)
  · rfl
  · exact absurd hConnects' (hBefore i' hGt)

end Network

/-! ## The stage at which an exchange fails -/

/-- The stage that a fault of an exchange belongs to, if any. -/
def ExchangeFault.stage? (fault : ExchangeFault) : Option Stage := fault.failure?.map Failure.stage

/-- An exchange that fails at a stage. -/
def Exchange.FailsAt (stage : Stage) (result : Except ExchangeFault Report) : Prop :=
  ∃ fault, result = .error fault ∧ fault.stage? = some stage

namespace Exchange

theorem failsAt_error_iff {stage : Stage} {fault : ExchangeFault} :
    FailsAt stage (.error fault) ↔ fault.stage? = some stage := by
  simp [FailsAt]

theorem not_failsAt_ok (stage : Stage) (r : Report) : ¬ FailsAt stage (.ok r) := by
  rintro ⟨fault, hFault, -⟩
  cases hFault

theorem stage?_undecodable (fault : ReplyFault) :
    (ExchangeFault.undecodable fault).stage? = some .decoding := by
  rw [ExchangeFault.stage?, ExchangeFault.failure?, Option.map_some, fault.failure_stage]

end Exchange

namespace SocketBehaviour

/-- A daemon that takes a request and answers something. -/
def Answers (b : SocketBehaviour) (size : Int) : Prop :=
  b.send = none ∧ b.receive = none ∧ b.received size ≠ []

/-- What comes of a connected socket that can be closed: a fault of the transport, or what the
answer is read as. -/
theorem outcome_cases {net : Network} (h : net.FaultsExternal) {s : Nat}
    (hClose : (net.socket s).close = none) (action : Action) (size : Int) :
    (¬ (net.socket s).Answers size ∧ ∃ fault,
        (net.socket s).outcome action size = .error fault ∧ fault.stage? = some .transport) ∨
      (net.socket s).Answers size ∧ (net.socket s).outcome action size =
        (Report.ofReply (.bytes ((net.socket s).received size))).mapError .undecodable := by
  unfold Answers
  rw [outcome, hClose]
  dsimp only
  rw [reply?]
  -- the three conditions of `Answers`, in the order of the calls they are about
  cases hSend : (net.socket s).send with
  | some fault =>
    refine .inl ⟨fun hAnswers => (nomatch hAnswers.1), _, rfl, ?_⟩
    rw [if_pos (h.send hSend)]
    rfl
  | none =>
    cases hReceive : (net.socket s).receive with
    | some fault =>
      refine .inl ⟨fun hAnswers => (nomatch hAnswers.2.1), _, rfl, ?_⟩
      rw [if_pos (h.receive hReceive)]
      rfl
    | none =>
      dsimp only
      by_cases hEmpty : (net.socket s).received size = []
      · rw [if_pos hEmpty]
        exact .inl ⟨fun hAnswers => hAnswers.2.2 hEmpty, _, rfl, rfl⟩
      · rw [if_neg hEmpty]
        exact .inr ⟨⟨rfl, rfl, hEmpty⟩, rfl⟩

end SocketBehaviour

namespace Exchange

/-- What an exchange ends in tells how far it came: each stage fails for reasons of its own, and
without any of them there is a report. -/
structure TellsStage (net : Network) (sockets : Nat) (size : Int)
    (result : Except ExchangeFault Report) : Prop where
  resolution : FailsAt .resolution result ↔ ∃ fault, net.lookup = .error fault
  connection : FailsAt .connection result ↔ ∃ endpoints, net.lookup = .ok endpoints ∧
    ∀ i < endpoints.length, ¬ (net.socket (sockets + i)).Connects
  transport : FailsAt .transport result ↔
    ∃ s, net.Reaches sockets s ∧ ¬ (net.socket s).Answers size
  decoding : FailsAt .decoding result ↔ ∃ s, net.Reaches sockets s ∧ (net.socket s).Answers size ∧
    ∃ fault, Report.ofReply (.bytes ((net.socket s).received size)) = .error fault
  report : ∀ r, result = .ok r ↔ ∃ s, net.Reaches sockets s ∧ (net.socket s).Answers size ∧
    Report.ofReply (.bytes ((net.socket s).received size)) = .ok r

variable {net : Network} {sockets : Nat} {size : Int} {result : Except ExchangeFault Report}

theorem tellsStage_of_lookup {fault : Fault} (h : net.lookup = .error fault)
    (hResult : ∃ f, result = .error f ∧ f.stage? = some .resolution) :
    TellsStage net sockets size result := by
  obtain ⟨f, rfl, hStage⟩ := hResult
  have hReaches : ∀ s, ¬ net.Reaches sockets s := by
    rintro s ⟨endpoints, i, hLookup, -⟩
    rw [h] at hLookup
    cases hLookup
  constructor <;> simp [failsAt_error_iff, hStage, h, hReaches]

theorem tellsStage_of_none {endpoints : List Endpoint} (h : net.lookup = .ok endpoints)
    (hNone : ∀ i < endpoints.length, ¬ (net.socket (sockets + i)).Connects)
    (hResult : ∃ f, result = .error f ∧ f.stage? = some .connection) :
    TellsStage net sockets size result := by
  obtain ⟨f, rfl, hStage⟩ := hResult
  have hReaches : ∀ s, ¬ net.Reaches sockets s := by
    rintro s ⟨endpoints', i, hLookup, hi, rfl, hConnects, -⟩
    obtain rfl := Except.ok.inj (h.symm.trans hLookup)
    exact hNone i hi hConnects
  constructor <;> simp [failsAt_error_iff, hStage, h, hReaches]
  exact hNone

theorem tellsStage_of_reaches {s : Nat} (h : net.Reaches sockets s)
    (hResult : (¬ (net.socket s).Answers size ∧
        ∃ f, result = .error f ∧ f.stage? = some .transport) ∨
      (net.socket s).Answers size ∧ result =
        (Report.ofReply (.bytes ((net.socket s).received size))).mapError .undecodable) :
    TellsStage net sockets size result := by
  -- the socket is the only one that is reached
  have hOnly : ∀ {P : Nat → Prop}, (∃ s', net.Reaches sockets s' ∧ P s') ↔ P s := by
    intro P
    refine ⟨?_, fun hP => ⟨s, h, hP⟩⟩
    rintro ⟨s', hReaches, hP⟩
    rwa [h.eq hReaches]
  obtain ⟨endpoints, i, hLookup, hi, rfl, hConnects, -⟩ := id h
  have hSome : ¬ ∀ i < endpoints.length, ¬ (net.socket (sockets + i)).Connects :=
    fun hNone => hNone i hi hConnects
  rcases hResult with ⟨hAnswers, f, rfl, hStage⟩ | ⟨hAnswers, rfl⟩
  · constructor <;> simp [failsAt_error_iff, hStage, hLookup, hSome, hAnswers, hOnly]
  · cases hReply : Report.ofReply (.bytes ((net.socket (sockets + i)).received size)) with
    | error f =>
      constructor <;>
        simp [Except.mapError, failsAt_error_iff, stage?_undecodable, hLookup, hSome, hAnswers,
          hReply, hOnly]
    | ok r =>
      constructor <;>
        simp [Except.mapError, not_failsAt_ok, hLookup, hSome, hAnswers, hReply, hOnly]

variable (net sockets) (context : Log.Context) (host : Option Text) (timeout : Timeout)
variable (action : Action)

/-- **The course of an exchange.** Where every fault is one of the network, the calls of an exchange
are its course and nothing else: one lookup, the candidates in order, and the conversation on the
first socket that connects. When the sockets that it closes can be closed, it ends in a report or in
the fault of the stage that failed; a close that fails is passed on as the fault of no stage. -/
theorem exchange_course (h : net.FaultsExternal) (settings : Settings) (port : Port)
    (limit : Option Int) :
    let size := limit.getD settings.bufferSize
    let calls := net.course sockets host port.text (timeoutFor settings timeout) action size
    let run := (exchange settings host port action timeout limit).run net sockets context
    run.steps.map Step.call = calls ∧
      ((∀ s, Call.close s ∈ calls → (net.socket s).close = none) →
        TellsStage net sockets size run.result) ∧
      ∀ s fault, Call.close s ∈ calls → (net.socket s).close = some fault →
        run.result = .error (.interrupted fault) := by
  intro size calls run
  -- the frame in the log changes neither the calls nor the result
  have hRun : run = _ :=
    exchange_run net sockets context host timeout action settings port limit
  obtain ⟨hSteps, hResult⟩ := unbound_course net sockets
    (context.enter (.ofTarget host port.text action.name)) host port.text
    (timeoutFor settings timeout) action size h
  rw [hRun]
  refine ⟨hSteps, ?_, ?_⟩
  all_goals
    dsimp only
    rw [hResult]
    simp only [calls, Network.course]
  · cases hLookup : net.lookup with
    | error fault => exact fun _ => tellsStage_of_lookup hLookup ⟨_, rfl, rfl⟩
    | ok endpoints =>
      intro hClose
      have hAttempts : ∀ s, Call.close s ∈ net.attempts sockets _ endpoints →
          (net.socket s).close = none :=
        fun s hs => hClose s (List.mem_cons_of_mem _ (List.mem_append_left _ hs))
      rcases Network.search_of_closes hAttempts with
        ⟨i, hi, hSearch, hConnects, hBefore⟩ | ⟨hSearch, hNone⟩
      · -- the socket that connects is closed at the end of the conversation on it
        have hEnd : (net.socket (sockets + i)).close = none := by
          refine hClose _ (List.mem_cons_of_mem _ (List.mem_append_right _ ?_))
          rw [hSearch]
          simp [SocketBehaviour.conversation]
        dsimp only
        rw [hSearch]
        exact tellsStage_of_reaches ⟨endpoints, i, hLookup, hi, rfl, hConnects, hBefore⟩
          (SocketBehaviour.outcome_cases h hEnd action size)
      · dsimp only
        rw [hSearch]
        exact tellsStage_of_none hLookup hNone ⟨_, rfl, rfl⟩
  · intro s fault hs hFault
    cases hLookup : net.lookup with
    | error _ => simp [hLookup] at hs
    | ok endpoints =>
      rw [hLookup] at hs
      dsimp only at hs ⊢
      rcases List.mem_append.mp (List.mem_of_ne_of_mem (by simp) hs) with hAttempt | hEnd
      · rw [Network.search_eq_broken hAttempt hFault]
      · cases hSearch : net.search sockets endpoints with
        | connected s' =>
          rw [hSearch] at hEnd
          obtain rfl : s = s' := by
            cases hSend : (net.socket s').send <;>
              simpa [SocketBehaviour.conversation, hSend] using hEnd
          dsimp only
          rw [SocketBehaviour.outcome, hFault]
        | broken _ => simp [hSearch] at hEnd
        | exhausted => simp [hSearch] at hEnd

/-- The first of two candidates refuses the connection and the second answers with two brackets. -/
theorem exchange_course_of_two :
    let first : Endpoint := ⟨.v4 "192.0.2.1" 2958, Endpoint.stream, Endpoint.tcp⟩
    let second : Endpoint := ⟨.v4 "192.0.2.2" 2958, Endpoint.stream, Endpoint.tcp⟩
    let refused : SocketBehaviour := { connect := some ⟨.system, some 111, "Connection refused"⟩ }
    let net : Network :=
      ⟨.ok [first, second], fun n => if n = 0 then refused else { reply := [0x7B, 0x7D] }, .null⟩
    let run := (exchange {} none (.number 2958) .status (some (.whole 3)) none).run net 0 []
    net.FaultsExternal ∧
      run.steps.map Step.call =
        [.lookup none "2958", .create first, .setTimeout 0 (some (.whole 3)),
          .connect 0 first.address, .close 0, .create second, .setTimeout 1 (some (.whole 3)),
          .connect 1 second.address, .send 1 Action.status.toBytes, .receive 1 2048, .close 1] ∧
      run.result = .ok (Report.ofDocument []) := by
  intro first second refused net run
  have hExternal : net.FaultsExternal := by
    refine ⟨nofun, fun s => ?_⟩
    by_cases hs : s = 0
    · subst hs
      decide
    · simp [net, hs, SocketBehaviour.faults]
  obtain ⟨hSteps, hTells, -⟩ := exchange_course net 0 [] none (some (.whole 3)) .status hExternal {}
    (.number 2958) none
  refine ⟨hExternal, hSteps, ?_⟩
  -- the socket of the second candidate is the first that connects, and every close succeeds
  have hReaches : net.Reaches 0 1 := by
    refine ⟨[first, second], 1, rfl, by decide, rfl, ⟨rfl, rfl⟩, fun j hj => ?_⟩
    obtain rfl : j = 0 := by omega
    exact fun hConnects => nomatch hConnects.2
  have hClose : ∀ s, (net.socket s).close = none := by
    intro s
    by_cases hs : s = 0 <;> simp [net, refused, hs]
  refine ((hTells fun s _ => hClose s).report _).mpr ⟨1, hReaches, ⟨rfl, rfl, by decide⟩, ?_⟩
  have hDocument : Reply.document (.bytes [0x7B, 0x7D]) = .ok [] := by cbv
  exact Report.ofReply_eq_ok_iff.mpr ⟨[], hDocument, rfl⟩

/-- A request that cannot be sent, on a socket that cannot be closed either, is not reported as a
failure of the transport: the fault of the close takes its place. -/
theorem not_failsAt_transport_of_close :
    let candidate : Endpoint := ⟨.v4 "192.0.2.1" 2958, Endpoint.stream, Endpoint.tcp⟩
    let broken : Fault := ⟨.system, some 5, "Input/output error"⟩
    let socket : SocketBehaviour :=
      { send := some ⟨.system, some 32, "Broken pipe"⟩, close := some broken }
    let net : Network := ⟨.ok [candidate], fun _ => socket, .null⟩
    let run := (exchange {} (some "daemon") (.name "2958") .status none none).run net 0 []
    net.FaultsExternal ∧ net.Reaches 0 0 ∧ ¬ (net.socket 0).Answers 2048 ∧
      run.result = .error (.interrupted broken) ∧ ¬ FailsAt .transport run.result := by
  intro candidate broken socket net run
  have hFaults : ∀ fault ∈ socket.faults, fault.isExternal = true := by decide
  have hResult : run.result = .error (.interrupted broken) := rfl
  refine ⟨?_, ?_, ?_, hResult, ?_⟩
  · exact ⟨nofun, fun _ => hFaults⟩
  · exact ⟨[candidate], 0, rfl, Nat.one_pos, rfl, ⟨rfl, rfl⟩,
      fun j hj => absurd hj (Nat.not_lt_zero j)⟩
  · exact fun h => nomatch h.1
  · rw [hResult, failsAt_error_iff]
    exact nofun

end Exchange

end OscMonitor
