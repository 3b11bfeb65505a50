import OscMonitor.Proofs.Exchange.Sockets

/-!
# Falling back from one candidate to the next

A lookup yields candidates, and a call for a connection takes them from the front until one
connects. What it has not taken is left to the next call, so that several calls together go through
the candidates once. Here a candidate does one of three things: its socket cannot be created, its
socket is created but cannot be opened and is closed again, or it connects.

An induction on the candidates gives what one call does, and from there another on the calls gives
what they do together.

* `connectAfter_run_cons_of_declines`, `connectAfter_run_cons_of_connects` — the first candidate.
* `connectAfter_fallsBack` — what one call takes, what it ends in, and what it closes and logs.
* `connections_consume` — every call goes on where the one before has stopped.
* `connections_fallback` — the two together, for the candidates of a lookup.
-/

namespace OscMonitor

/-- The candidate that a step creates a socket for. -/
def Step.candidate? (st : Step) : Option Endpoint :=
  match st.call with
  | .create e => some e
  | _ => none

/-- The candidates that a trace tries, in order. -/
def triedIn (steps : List Step) : List Endpoint := steps.filterMap Step.candidate?

theorem triedIn_append (steps steps' : List Step) :
    triedIn (steps ++ steps') = triedIn steps ++ triedIn steps' :=
  List.filterMap_append

namespace Orderly

variable {net : Network} {n n' : Nat} {steps : List Step}

/-- When a socket is created, every socket that was created before is closed. -/
theorem openAfter_of_create {held' : Option Nat} (h : Orderly net n none steps n' held')
    {before after : List Step} {k : Nat} {e : Endpoint}
    (hSteps : steps = before ++ ⟨k, .create e⟩ :: after) : openAfter net before = [] := by
  subst hSteps
  obtain ⟨m, held, hBefore, hAfter⟩ := h.split
  -- nothing is held where a socket is created
  have hHeld : held = none := by
    cases hAfter with
    | uncreated _ _ => rfl
    | created _ _ => rfl
    | act hSocket _ _ => cases hSocket
  subst hHeld
  exact List.eq_nil_iff_forall_not_mem.mpr fun s hs => nomatch hBefore.held_of_mem_openAfter hs

end Orderly

namespace Exchange

/-- Whom a call for a connection names as its target, and how long it may wait. -/
structure Target where
  host : Option Text
  port : Text
  timeout : Timeout

/-- What is noted of a candidate that fails, by the call that fails. -/
def Target.failure? (t : Target) (b : SocketBehaviour) (e : Endpoint) : Option Notice :=
  match b.create with
  | some fault => some (.socketFailed t.host t.port e fault)
  | none => b.opening.map (.connectFailed t.host t.port e)

/-- Warnings among events. -/
def warningsIn (events : List Log.Event) : List Log.Event := events.filter (·.level == .warning)

theorem warningsIn_append (events events' : List Log.Event) :
    warningsIn (events ++ events') = warningsIn events ++ warningsIn events' :=
  List.filter_append ..

end Exchange

/-- A candidate that is passed over or connects. -/
def SocketBehaviour.Decided (b : SocketBehaviour) : Prop := b.Declines ∨ b.Connects

theorem SocketBehaviour.Declines.not_connects {b : SocketBehaviour} (h : b.Declines) :
    ¬ b.Connects := by
  intro hConnects
  rcases h with ⟨fault, hCreate, -⟩ | ⟨-, -, fault, hOpening, -⟩
  · exact nomatch hCreate.symm.trans hConnects.1
  · exact nomatch hOpening.symm.trans hConnects.2

namespace Exchange

variable (net : Network) (sockets : Nat) (context : Log.Context) (t : Target)

/-- The warnings about candidates, the first of which has the socket `sockets`. -/
def failures (candidates : List Endpoint) : List Log.Event :=
  (candidates.zipIdx sockets).filterMap fun (e, s) =>
    (t.failure? (net.socket s) e).map fun n => n.event.within context

theorem failures_cons (e : Endpoint) (candidates : List Endpoint) :
    failures net sockets context t (e :: candidates) =
      ((t.failure? (net.socket sockets) e).map fun n => n.event.within context).toList ++
        failures net (sockets + 1) context t candidates := by
  unfold failures
  rw [List.zipIdx_cons]
  cases h : t.failure? (net.socket sockets) e <;> simp [h]

/-- The names of the warnings about candidates: one for each that fails, by the call that fails. -/
def failureNames (candidates : List Endpoint) : List Text :=
  (candidates.zipIdx sockets).filterMap fun (_, s) =>
    if (net.socket s).create.isSome then some "connector.socket_failed"
    else if (net.socket s).opening.isSome then some "connector.connect_failed"
    else none

theorem map_name_failures (candidates : List Endpoint) :
    (failures net sockets context t candidates).map Log.Event.name =
      failureNames net sockets candidates := by
  unfold failures failureNames
  rw [List.map_filterMap]
  refine congrArg (List.filterMap · _) (funext fun (e, s) => ?_)
  unfold Target.failure?
  dsimp only
  cases (net.socket s).create with
  | some fault => rfl
  | none =>
    dsimp only
    cases (net.socket s).opening <;> rfl

/-! ## One candidate -/

/-- The calls of a trace that tries one candidate, which gets the socket `sockets`. -/
structure Tries (e : Endpoint) (steps : List Step) (held : Option Nat) : Prop where
  tried : triedIn steps = [e]
  orderly : Orderly net sockets none steps (sockets + 1) held

theorem triedIn_openingSteps (k s : Nat) (a : Address) :
    triedIn (openingSteps net k t.timeout s a) = [] := by
  unfold openingSteps
  split <;> rfl

/-- A candidate that is passed over leaves its warning, and no socket. -/
theorem connectAfter_run_cons_of_declines (h : (net.socket sockets).Declines) (attempts : Nat)
    (e : Endpoint) (rest : List Endpoint) :
    ∃ steps n, Tries net sockets e steps none ∧ t.failure? (net.socket sockets) e = some n ∧
      n.event.level = .warning ∧
      (connectAfter t.host t.port t.timeout attempts (e :: rest)).run net sockets context =
        (⟨(), sockets + 1, context, steps, [n.event.within context]⟩ : Run Unit).followedBy
          ((connectAfter t.host t.port t.timeout (attempts + 1) rest).run net (sockets + 1)
            context) := by
  rcases h with ⟨fault, hCreate, hExternal⟩ | ⟨hCreate, hClose, fault, hOpening, hExternal⟩
  · -- there was never a socket, so nothing is to be closed
    have hNone : (net.socket sockets).create ≠ none := hCreate ▸ nofun
    refine ⟨[⟨sockets, .create e⟩], .socketFailed t.host t.port e fault,
      ⟨rfl, .uncreated hNone .nil⟩, ?_, rfl, ?_⟩
    · simp [Target.failure?, hCreate]
    · simp [connectAfter_run_cons, hCreate, hExternal]
  · -- the socket is created, and closed after it could not be opened
    refine ⟨⟨sockets, .create e⟩ :: (openingSteps net (sockets + 1) t.timeout sockets e.address ++
        [⟨sockets + 1, .close sockets⟩]), .connectFailed t.host t.port e fault,
      ⟨?_, ?_⟩, ?_, rfl, ?_⟩
    · show e :: triedIn (openingSteps net (sockets + 1) t.timeout sockets e.address ++ _) = [e]
      rw [triedIn_append, triedIn_openingSteps]
      rfl
    · have hOpened := Orderly.created (e := e) hCreate
        (openingSteps_orderly net t.timeout (sockets + 1) (sockets + 1) sockets e.address)
      exact hOpened.append (.close .nil)
    · simp [Target.failure?, hCreate, hOpening]
    · simp [connectAfter_run_cons, hCreate, hOpening, hClose, hExternal]

/-- A candidate that connects ends the stage, with its socket open and no warning. -/
theorem connectAfter_run_cons_of_connects (h : (net.socket sockets).Connects) (attempts : Nat)
    (e : Endpoint) (rest : List Endpoint) :
    ∃ steps events, Tries net sockets e steps (some sockets) ∧
      t.failure? (net.socket sockets) e = none ∧ warningsIn events = [] ∧
      (connectAfter t.host t.port t.timeout attempts (e :: rest)).run net sockets context =
        ⟨(.ok sockets, rest), sockets + 1, context, steps, events⟩ := by
  obtain ⟨hCreate, hOpening⟩ := h
  refine ⟨⟨sockets, .create e⟩ :: openingSteps net (sockets + 1) t.timeout sockets e.address,
    [(Notice.connected e (attempts + 1)).event.within context], ⟨?_, ?_⟩, ?_, rfl, ?_⟩
  · show e :: triedIn (openingSteps net (sockets + 1) t.timeout sockets e.address) = [e]
    rw [triedIn_openingSteps]
  · exact .created hCreate (openingSteps_orderly net t.timeout _ _ _ _)
  · simp [Target.failure?, hCreate, hOpening]
  · simp [connectAfter_run_cons, hCreate, hOpening]

/-! ## One call -/

/-- What a call for a connection does with the candidates that are left, when `sockets` sockets have
been asked for before and the call has tried `attempts` candidates already. -/
structure FallsBack (attempts : Nat) (candidates : List Endpoint)
    (run : Run (Except ExchangeFault Nat × List Endpoint)) : Prop where
  -- The first candidate that connects ends the call.
  connects : ∀ i < candidates.length, (net.socket (sockets + i)).Connects →
    (∀ j < i, ¬ (net.socket (sockets + j)).Connects) →
    run.result.1 = .ok (sockets + i) ∧ triedIn run.steps = candidates.take (i + 1)
  -- Without one the call fails, and says how many candidates it has tried.
  exhausted : (∀ i < candidates.length, ¬ (net.socket (sockets + i)).Connects) →
    run.result.1 = .error (.unreachable t.host t.port (attempts + candidates.length)) ∧
      triedIn run.steps = candidates
  -- What is tried and what is left are the candidates, in their order.
  consumed : triedIn run.steps ++ run.result.2 = candidates
  -- Every candidate that is tried asks for one socket.
  sockets_eq : run.sockets = sockets + (triedIn run.steps).length
  -- Every candidate that fails is warned about, in order, by the call that fails.
  warned : warningsIn run.events = failures net sockets context t (triedIn run.steps)
  -- One socket is held at a time, at the end the one that is returned.
  orderly : Orderly net sockets none run.steps run.sockets run.result.1.toOption

variable {net sockets context t}

/-- A call that passes over its first candidate does with the others what the rest of it does. -/
theorem FallsBack.passed {attempts : Nat} {e : Endpoint} {rest : List Endpoint} {steps : List Step}
    {n : Notice} {run : Run (Except ExchangeFault Nat × List Endpoint)}
    (hDeclines : (net.socket sockets).Declines) (hTries : Tries net sockets e steps none)
    (hNotice : t.failure? (net.socket sockets) e = some n) (hLevel : n.event.level = .warning)
    (hRest : FallsBack net (sockets + 1) context t (attempts + 1) rest run) :
    FallsBack net sockets context t attempts (e :: rest)
      ((⟨(), sockets + 1, context, steps, [n.event.within context]⟩ : Run Unit).followedBy
        run) := by
  have hTried : ∀ steps', triedIn (steps ++ steps') = e :: triedIn steps' := by
    intro steps'
    rw [triedIn_append, hTries.tried, List.singleton_append]
  -- a candidate of the rest stands one place further here, on the same socket
  have hShift : ∀ i, sockets + (i + 1) = sockets + 1 + i := by
    intro i
    omega
  refine ⟨?_, ?_, ?_, ?_, ?_, hTries.orderly.append hRest.orderly⟩
  · -- the candidate that connects is not the first one, so it is one of the others
    intro i hi hConnects hBefore
    cases i with
    | zero => exact absurd hConnects hDeclines.not_connects
    | succ i =>
      rw [hShift i] at hConnects ⊢
      have hBefore' : ∀ j < i, ¬ (net.socket (sockets + 1 + j)).Connects := by
        intro j hj
        rw [← hShift]
        exact hBefore (j + 1) (by omega)
      obtain ⟨hResult, hTake⟩ :=
        hRest.connects i (Nat.lt_of_succ_lt_succ hi) hConnects hBefore'
      refine ⟨hResult, ?_⟩
      rw [Run.followedBy_steps, hTried, hTake, List.take_succ_cons]
  · -- the candidate that is passed over counts as an attempt
    intro hNone
    have hNone' : ∀ i < rest.length, ¬ (net.socket (sockets + 1 + i)).Connects := by
      intro i hi
      rw [← hShift]
      exact hNone (i + 1) (Nat.succ_lt_succ hi)
    obtain ⟨hResult, hAll⟩ := hRest.exhausted hNone'
    have hLength : attempts + 1 + rest.length = attempts + (e :: rest).length := by
      rw [List.length_cons]
      omega
    rw [hLength] at hResult
    refine ⟨hResult, ?_⟩
    rw [Run.followedBy_steps, hTried, hAll]
  · rw [Run.followedBy_steps, Run.followedBy_result, hTried, List.cons_append, hRest.consumed]
  · rw [Run.followedBy_steps, Run.followedBy_sockets, hTried, hRest.sockets_eq, List.length_cons]
    omega
  · -- its warning stands before those of the others
    have hWarning : warningsIn [n.event.within context] = [n.event.within context] := by
      simp [warningsIn, Log.Event.within, hLevel]
    rw [Run.followedBy_steps, Run.followedBy_events, hTried, warningsIn_append, hWarning,
      hRest.warned, failures_cons, hNotice]
    rfl

/-- A call whose first candidate connects leaves the others. -/
theorem FallsBack.connected {attempts : Nat} {e : Endpoint} {rest : List Endpoint}
    {steps : List Step} {events : List Log.Event} (hConnects : (net.socket sockets).Connects)
    (hTries : Tries net sockets e steps (some sockets))
    (hNotice : t.failure? (net.socket sockets) e = none) (hEvents : warningsIn events = []) :
    FallsBack net sockets context t attempts (e :: rest)
      ⟨(.ok sockets, rest), sockets + 1, context, steps, events⟩ := by
  refine ⟨?_, ?_, ?_, ?_, ?_, hTries.orderly⟩
  · intro i _ _ hBefore
    cases i with
    | zero => exact ⟨rfl, hTries.tried⟩
    | succ i => exact absurd hConnects (hBefore 0 (Nat.succ_pos i))
  · exact fun hNone => absurd hConnects (hNone 0 (Nat.succ_pos _))
  · show triedIn steps ++ rest = e :: rest
    rw [hTries.tried, List.singleton_append]
  · show sockets + 1 = sockets + (triedIn steps).length
    rw [hTries.tried, List.length_singleton]
  · show warningsIn events = failures net sockets context t (triedIn steps)
    rw [hEvents, hTries.tried, failures_cons, hNotice]
    rfl

variable (net sockets context t)

/-- A call for a connection takes the candidates from the front. -/
theorem connectAfter_fallsBack (attempts : Nat) (candidates : List Endpoint)
    (h : ∀ i < candidates.length, (net.socket (sockets + i)).Decided) :
    FallsBack net sockets context t attempts candidates
      ((connectAfter t.host t.port t.timeout attempts candidates).run net sockets context) := by
  -- induction on the candidates; the call goes on with one socket and one attempt more
  induction candidates generalizing sockets attempts with
  | nil =>
    exact ⟨fun _ hi => absurd hi (Nat.not_lt_zero _), fun _ => ⟨rfl, rfl⟩, rfl, rfl, rfl, .nil⟩
  | cons e rest ih =>
    have hRest : ∀ i < rest.length, (net.socket (sockets + 1 + i)).Decided := by
      intro i hi
      have hNext := h (i + 1) (Nat.succ_lt_succ hi)
      rwa [show sockets + (i + 1) = sockets + 1 + i by omega] at hNext
    rcases h 0 (Nat.succ_pos _) with hDeclines | hConnects
    · obtain ⟨steps, n, hTries, hNotice, hLevel, hRun⟩ :=
        connectAfter_run_cons_of_declines net sockets context t hDeclines attempts e rest
      rw [hRun]
      exact .passed hDeclines hTries hNotice hLevel (ih (sockets + 1) (attempts + 1) hRest)
    · obtain ⟨steps, events, hTries, hNotice, hEvents, hRun⟩ :=
        connectAfter_run_cons_of_connects net sockets context t hConnects attempts e rest
      rw [hRun]
      exact .connected hConnects hTries hNotice hEvents

theorem connectFirst_fallsBack (candidates : List Endpoint)
    (h : ∀ i < candidates.length, (net.socket (sockets + i)).Decided) :
    FallsBack net sockets context t 0 candidates
      ((connectFirst t.host t.port t.timeout candidates).run net sockets context) :=
  connectAfter_fallsBack net sockets context t 0 candidates h

/-! ## Several calls -/

/-- Successive calls for a connection on the same candidates: each begins with the candidates that
the one before has left. -/
def connections : Nat → List Endpoint → List Target →
    List (Run (Except ExchangeFault Nat × List Endpoint))
  | _, _, [] => []
  | sockets, candidates, t :: targets =>
    let run := (connectFirst t.host t.port t.timeout candidates).run net sockets context
    run :: connections run.sockets run.result.2 targets

/-- The candidates that runs try, in order. -/
def triedBy {α : Type} (runs : List (Run α)) : List Endpoint :=
  runs.flatMap fun r => triedIn r.steps

theorem triedBy_cons {α : Type} (run : Run α) (runs : List (Run α)) :
    triedBy (run :: runs) = triedIn run.steps ++ triedBy runs := rfl

/-- The candidates that the last of some calls has left. -/
def leftBy (candidates : List Endpoint)
    (runs : List (Run (Except ExchangeFault Nat × List Endpoint))) : List Endpoint :=
  (runs.getLast?.map fun r => r.result.2).getD candidates

theorem leftBy_cons (candidates : List Endpoint)
    (run : Run (Except ExchangeFault Nat × List Endpoint))
    (runs : List (Run (Except ExchangeFault Nat × List Endpoint))) :
    leftBy candidates (run :: runs) = leftBy run.result.2 runs := by
  unfold leftBy
  rw [List.getLast?_cons]
  cases runs.getLast? <;> rfl

theorem length_connections (candidates : List Endpoint) (targets : List Target) :
    (connections net context sockets candidates targets).length = targets.length := by
  induction targets generalizing sockets candidates with
  | nil => rfl
  | cons t targets ih => rw [connections, List.length_cons, List.length_cons, ih]

variable {net sockets context t}

/-- What a call leaves is what comes after the candidates that it has tried. -/
theorem FallsBack.left_eq_drop {attempts : Nat} {candidates : List Endpoint}
    {run : Run (Except ExchangeFault Nat × List Endpoint)}
    (h : FallsBack net sockets context t attempts candidates run) :
    run.result.2 = candidates.drop (triedIn run.steps).length := by
  rw [← h.consumed, List.drop_left]

/-- The sockets of the candidates that a call leaves do one of the three things, too. -/
theorem FallsBack.decided_left {attempts : Nat} {candidates : List Endpoint}
    {run : Run (Except ExchangeFault Nat × List Endpoint)}
    (h : FallsBack net sockets context t attempts candidates run)
    (hDecided : ∀ i < candidates.length, (net.socket (sockets + i)).Decided) :
    ∀ i < run.result.2.length, (net.socket (run.sockets + i)).Decided := by
  intro i hi
  have hLength := congrArg List.length h.consumed
  rw [List.length_append] at hLength
  rw [h.sockets_eq, Nat.add_assoc]
  exact hDecided _ (by omega)

/-- Calls one after the other go through the candidates once. -/
theorem connections_consume (candidates : List Endpoint) (targets : List Target)
    (h : ∀ i < candidates.length, (net.socket (sockets + i)).Decided) :
    let runs := connections net context sockets candidates targets
    triedBy runs ++ leftBy candidates runs = candidates := by
  induction targets generalizing sockets candidates with
  | nil => rfl
  | cons t targets ih =>
    have hFirst := connectFirst_fallsBack net sockets context t candidates h
    have hRest := ih _ (hFirst.decided_left h)
    dsimp only at hRest ⊢
    rw [connections, leftBy_cons, triedBy_cons, List.append_assoc, hRest, hFirst.consumed]

/-- Every call goes on where the calls before it have stopped. -/
theorem connections_fallsBack (candidates : List Endpoint) (targets : List Target)
    (h : ∀ i < candidates.length, (net.socket (sockets + i)).Decided) {i : Nat}
    {run : Run (Except ExchangeFault Nat × List Endpoint)} {t : Target}
    (hRun : (connections net context sockets candidates targets)[i]? = some run)
    (hTarget : targets[i]? = some t) :
    let n := (triedBy ((connections net context sockets candidates targets).take i)).length
    FallsBack net (sockets + n) context t 0 (candidates.drop n) run := by
  induction targets generalizing sockets candidates i with
  | nil => exact nomatch hTarget
  | cons t' targets ih =>
    have hFirst := connectFirst_fallsBack net sockets context t' candidates h
    rw [connections] at hRun ⊢
    cases i with
    | zero =>
      obtain rfl := Option.some.inj hRun
      obtain rfl := Option.some.inj hTarget
      exact hFirst
    | succ i =>
      have hRest := ih _ (hFirst.decided_left h) hRun hTarget
      dsimp only at hRest ⊢
      -- the calls before this one are the first one and those before it among the others
      rw [List.take_succ_cons, triedBy_cons, List.length_append, ← Nat.add_assoc,
        ← List.drop_drop, ← hFirst.sockets_eq, ← hFirst.left_eq_drop]
      exact hRest

/-- A trace that closes every socket that it creates, once and before it creates another, except for
the socket that is returned. -/
structure ClosesOthers (net : Network) (steps : List Step) (returned : Option Nat) : Prop where
  once : ∀ s ∈ createdIn net steps, (closedIn steps).count s = if returned = some s then 0 else 1
  before : ∀ before k e after, steps = before ++ ⟨k, .create e⟩ :: after → openAfter net before = []

theorem FallsBack.closesOthers {attempts : Nat} {candidates : List Endpoint}
    {run : Run (Except ExchangeFault Nat × List Endpoint)}
    (h : FallsBack net sockets context t attempts candidates run) :
    ClosesOthers net run.steps run.result.1.toOption :=
  ⟨fun _ hs => h.orderly.count_closed hs,
    fun _ _ _ _ hSteps => h.orderly.openAfter_of_create hSteps⟩

/-- **Falling back.** Let the candidates of a lookup each be passed over or connect. Then any number
of calls for a connection go through them once, in the order of the lookup. Each call goes on where
the calls before it have stopped. It ends in the socket of the first candidate that connects, or if
none does in a failure that counts the candidates it has tried. It has closed all its other sockets,
each before it has created the next one, and has warned about every candidate that failed, in order
and by the name that goes with the call that failed.

Nothing is assumed of the calls but that a candidate does one of the three things, with the faults
of the system: a fault of another sort ends the exchange at once, as does one in closing a
socket. -/
theorem connections_fallback (host : Option Text) (port : Text) {endpoints : List Endpoint}
    (hResolve : ((resolve host port).run net sockets context).result = .ok endpoints)
    (hDecided : ∀ i < endpoints.length, (net.socket (sockets + i)).Decided)
    (targets : List Target) :
    let runs := connections net context sockets endpoints targets
    net.lookup = .ok endpoints ∧ runs.length = targets.length ∧
      triedBy runs ++ leftBy endpoints runs = endpoints ∧
      ∀ i run t, runs[i]? = some run → targets[i]? = some t →
        let n := (triedBy (runs.take i)).length
        FallsBack net (sockets + n) context t 0 (endpoints.drop n) run ∧
          (warningsIn run.events).map Log.Event.name =
            failureNames net (sockets + n) (triedIn run.steps) ∧
          ClosesOthers net run.steps run.result.1.toOption := by
  intro runs
  refine ⟨?_, length_connections net sockets context endpoints targets,
    connections_consume endpoints targets hDecided, ?_⟩
  · rw [resolve_run] at hResolve
    cases hLookup : net.lookup with
    | ok found =>
      rw [hLookup] at hResolve
      obtain rfl := Except.ok.inj hResolve
      rfl
    | error fault =>
      rw [hLookup] at hResolve
      exact nomatch hResolve
  · intro i run t hRun hTarget
    have hFalls := connections_fallsBack endpoints targets hDecided hRun hTarget
    refine ⟨hFalls, ?_, hFalls.closesOthers⟩
    rw [hFalls.warned, map_name_failures]

/-- Of four candidates the first has no socket and the second refuses the connection; three calls
end in the sockets of the third and the fourth, and in a failure without an attempt. -/
theorem connections_fallback_of_four :
    let candidate (n : Nat) : Endpoint := ⟨.v4 "192.0.2.1" n, Endpoint.stream, Endpoint.tcp⟩
    let endpoints := [candidate 1, candidate 2, candidate 3, candidate 4]
    let unsupported : SocketBehaviour := { create := some ⟨.system, some 97, "Not supported"⟩ }
    let refused : SocketBehaviour := { connect := some ⟨.system, some 111, "Connection refused"⟩ }
    let net : Network :=
      ⟨.ok endpoints, fun n => if n = 0 then unsupported else if n = 1 then refused else {}, .null⟩
    let t : Target := ⟨some "daemon", "2958", none⟩
    let runs := connections net [] 0 endpoints (List.replicate 3 t)
    ((resolve t.host t.port).run net 0 []).result = .ok endpoints ∧
      (∀ i < endpoints.length, (net.socket (0 + i)).Decided) ∧
      triedBy runs ++ leftBy endpoints runs = endpoints ∧
      runs.map (fun r => triedIn r.steps) =
        [[candidate 1, candidate 2, candidate 3], [candidate 4], []] ∧
      runs.map (fun r => r.result.1) =
        [.ok 2, .ok 3, .error (.unreachable (some "daemon") "2958" 0)] ∧
      (∃ r, runs[0]? = some r ∧ (warningsIn r.events).map Log.Event.name =
        ["connector.socket_failed", "connector.connect_failed"]) ∧
      ∀ r ∈ runs, ClosesOthers net r.steps r.result.1.toOption := by
  intro candidate endpoints unsupported refused net t runs
  -- the first two are passed over in different ways, all others connect
  have hDecided : ∀ i < endpoints.length, (net.socket (0 + i)).Decided := by
    intro i hi
    rw [Nat.zero_add]
    by_cases h0 : i = 0
    · subst h0
      exact .inl (.inl ⟨_, rfl, rfl⟩)
    · by_cases h1 : i = 1
      · subst h1
        exact .inl (.inr ⟨rfl, rfl, _, rfl, rfl⟩)
      · simp only [net, if_neg h0, if_neg h1]
        exact .inr ⟨rfl, rfl⟩
  obtain ⟨-, hLength, hConsumed, hCalls⟩ :=
    @connections_fallback net 0 [] t.host t.port endpoints rfl hDecided (List.replicate 3 t)
  have hTried : runs.map (fun r => triedIn r.steps) =
      [[candidate 1, candidate 2, candidate 3], [candidate 4], []] := by
    cbv
  have hResults : runs.map (fun r => r.result.1) =
      [.ok 2, .ok 3, .error (.unreachable (some "daemon") "2958" 0)] := by
    cbv
  have hCall : ∀ (i : Nat) r, runs[i]? = some r → (List.replicate 3 t)[i]? = some t := by
    intro i r hi
    obtain ⟨hLt, -⟩ := List.getElem?_eq_some_iff.mp hi
    exact List.getElem?_replicate_of_lt hLt
  refine ⟨rfl, hDecided, hConsumed, hTried, hResults, ⟨_, rfl, ?_⟩, ?_⟩
  · -- the first call tries three candidates, of which two fail
    obtain ⟨-, hNames, -⟩ := hCalls 0 _ t rfl rfl
    refine hNames.trans ?_
    have hFirst : triedIn (runs[0]).steps = [candidate 1, candidate 2, candidate 3] := by cbv
    exact (congrArg (failureNames net 0) hFirst).trans (by decide)
  · intro r hr
    obtain ⟨i, hi⟩ := List.mem_iff_getElem?.mp hr
    exact (hCalls i r t hi (hCall i r hi)).2.2

end Exchange

end OscMonitor
