import OscMonitor.Exchange.Client
import OscMonitor.Proofs.Exchange.Course

/-!
# What a client keeps

A client takes its host, port, time limit and buffer size from the settings of the moment when it is
built. Its exchanges run under the settings of later moments, which may differ.

Three of the four are kept for good: an exchange never looks at the settings for them again. The
time limit is kept too, unless it is none. Then an exchange takes "no limit" for "not given" and
asks the settings after all, so a client that was built to block blocks only as long as the settings
have no limit either.

Main results:

* `unbound_withTimeout` — a time limit shows in the calls that set it, and in nothing else.
* `run_context_eq` — what is bound in the log shows in the events, and in nothing else.
* `history_keeps` — after any history of settings and exchanges, an exchange of a client ends as it
  would have when the client was new, with the same calls but for a limit that is none.
-/

namespace OscMonitor

/-! ## Calls with another time limit -/

/-- A call, with another time limit if it sets one. -/
def Call.withTimeout (t : Timeout) : Call → Call
  | .setTimeout s _ => .setTimeout s t
  | c => c

def Step.withTimeout (t : Timeout) (st : Step) : Step := { st with call := st.call.withTimeout t }

namespace Run

variable {α β : Type} {t : Timeout}

/-- A run, with another time limit wherever one is set. -/
def withTimeout (t : Timeout) (r : Run α) : Run α :=
  { r with steps := r.steps.map (Step.withTimeout t) }

theorem withTimeout_followedBy (first : Run α) (second : Run β) :
    (first.followedBy second).withTimeout t =
      (first.withTimeout t).followedBy (second.withTimeout t) := by
  simp only [withTimeout, followedBy, List.map_append]

/-- A run that sets no time limit is the same with every limit. -/
theorem withTimeout_eq_self {r : Run α} (h : ∀ st ∈ r.steps, st.withTimeout t = st) :
    r.withTimeout t = r := by
  have hSteps : r.steps.map (Step.withTimeout t) = r.steps := by
    rw [List.map_congr_left h, List.map_id']
  unfold withTimeout
  rw [hSteps]

end Run

namespace Exchange

variable (net : Network) (sockets : Nat) (context : Log.Context)
variable (host : Option Text) (port : Text) (action : Action) (size : Int) (t t' : Timeout)

theorem openingSteps_withTimeout (socket : Nat) (a : Address) :
    (openingSteps net sockets t' socket a).map (Step.withTimeout t) =
      openingSteps net sockets t socket a := by
  unfold openingSteps
  split <;> rfl

/-- The candidates are tried alike under every time limit. -/
theorem connectAfter_withTimeout (attempts : Nat) (endpoints : List Endpoint) :
    (connectAfter host port t attempts endpoints).run net sockets context =
      ((connectAfter host port t' attempts endpoints).run net sockets context).withTimeout t := by
  induction endpoints generalizing sockets attempts with
  | nil => rfl
  | cons e rest ih =>
    rw [connectAfter_run_cons, connectAfter_run_cons]
    cases (net.socket sockets).create with
    | some fault =>
      dsimp only
      split
      · rw [Run.withTimeout_followedBy, ih]
        rfl
      · rfl
    | none =>
      dsimp only
      have hOpened := openingSteps_withTimeout net (sockets + 1) t t' sockets e.address
      cases (net.socket sockets).opening with
      | none => simp only [Run.withTimeout, List.map_cons, hOpened, Step.withTimeout,
          Call.withTimeout]
      | some fault =>
        dsimp only
        split
        · rw [Run.withTimeout_followedBy]
          -- the socket is closed, and the next candidate tried if that succeeds
          cases (net.socket sockets).close with
          | none =>
            dsimp only
            rw [ih]
            simp only [Run.withTimeout, List.map_cons, List.map_append, List.map_nil, hOpened,
              Step.withTimeout, Call.withTimeout]
          | some fault' =>
            simp only [Run.withTimeout, List.map_cons, List.map_append, List.map_nil, hOpened,
              Step.withTimeout, Call.withTimeout]
        · simp only [Run.withTimeout, List.map_cons, hOpened, Step.withTimeout, Call.withTimeout]

/-- No time limit is set on a socket that is connected. -/
theorem onSocket_withTimeout (socket : Nat) :
    ((onSocket socket action size).run net sockets context).withTimeout t =
      (onSocket socket action size).run net sockets context := by
  refine Run.withTimeout_eq_self fun st hst => ?_
  have hSteps := (onSocket_course net sockets context action size socket).1
  rw [hSteps] at hst
  cases hSend : (net.socket socket).send with
  | some fault =>
    simp only [hSend, Option.isNone_some, Bool.false_eq_true, if_false, List.nil_append,
      List.mem_pair] at hst
    rcases hst with rfl | rfl <;> rfl
  | none =>
    simp only [hSend, Option.isNone_none, if_true, List.singleton_append, List.mem_cons,
      List.not_mem_nil, or_false] at hst
    rcases hst with rfl | rfl | rfl <;> rfl

/-- A time limit shows in the calls that set it, and in nothing else. -/
theorem unbound_withTimeout :
    (unbound host port action t size).run net sockets context =
      ((unbound host port action t' size).run net sockets context).withTimeout t := by
  -- stage by stage: each has the same result with either limit, so the next one starts alike
  unfold unbound
  rw [Dialogue.run_bind_eq, Dialogue.run_bind_eq, Run.withTimeout_followedBy, resolve_run]
  cases net.lookup with
  | error fault => rfl
  | ok endpoints =>
    dsimp only
    rw [Dialogue.run_bind_eq, Dialogue.run_bind_eq, Run.withTimeout_followedBy, connectFirst,
      connectFirst, connectAfter_withTimeout net sockets context host port t t']
    generalize (connectAfter host port t' 0 endpoints).run net sockets context = tried
    have hResult : (tried.withTimeout t).result = tried.result := rfl
    have hSockets : (tried.withTimeout t).sockets = tried.sockets := rfl
    have hContext : (tried.withTimeout t).context = tried.context := rfl
    rw [hResult, hSockets, hContext]
    cases tried.result.1 with
    | error fault => rfl
    | ok socket =>
      dsimp only
      rw [Dialogue.run_bind_eq, Run.withTimeout_followedBy, onSocket_withTimeout]
      cases ((onSocket socket action size).run net tried.sockets tried.context).result with
      | error fault => rfl
      | ok report => rfl

end Exchange

/-! ## What is bound in the log -/

/-- What is bound in the log shows in the events, and in nothing else. -/
theorem Dialogue.run_context_eq {α : Type} (net : Network) (d : Dialogue α) (sockets : Nat)
    (c c' : Log.Context) :
    (d.run net sockets c).result = (d.run net sockets c').result ∧
      (d.run net sockets c).steps = (d.run net sockets c').steps := by
  induction d generalizing sockets c c' with
  | done a => exact ⟨rfl, rfl⟩
  | call call next ih =>
    obtain ⟨hResult, hSteps⟩ := ih (net.answer sockets call) (call.count sockets) c c'
    refine ⟨hResult, ?_⟩
    rw [run, run, hSteps]
  | note e next ih => exact ih sockets c c'
  | enter x next ih => exact ih sockets (c.enter x) (c'.enter x)
  | leave next ih => exact ih sockets c.leave c'.leave
  | elapsed next ih => exact ih net.elapsed sockets c c'

/-! ## The history of a client -/

namespace Client

/-- What happens after a client is built. -/
inductive Deed where
  -- The settings change.
  | configure (settings : Settings)
  -- The client makes an exchange on a network.
  | exchange (action : Action) (net : Network)

/-- An exchange of the past: when it was made, of what, and how it went. -/
structure Past where
  -- The settings of the moment.
  settings : Settings
  action : Action
  net : Network
  run : Run (Except ExchangeFault Report)

/-- The exchanges of a client, in order. Between them the settings may change, and each of them
begins with what is bound in the log after the one before. -/
def history (c : Client) (settings : Settings) (context : Log.Context) : List Deed → List Past
  | [] => []
  | .configure settings :: deeds => c.history settings context deeds
  | .exchange action net :: deeds =>
    let run := (c.exchange settings action).run net 0 context
    ⟨settings, action, net, run⟩ :: c.history settings run.context deeds

theorem ofSettings_eq_ok {settings : Settings} {host : Option Text} {port : Option Port}
    {timeout : Timeout} {size : Option Int} {c : Client}
    (h : ofSettings settings host port timeout size = .ok c) :
    c.timeout = timeout.or settings.socketTimeout := by
  unfold ofSettings at h
  split at h
  · cases h
  · cases h
    rfl

variable (c : Client)

/-- Under other settings, an exchange of a client differs in the time limit that it sets. -/
theorem exchange_withTimeout (settings settings' : Settings) (action : Action) (net : Network)
    (sockets : Nat) (context : Log.Context) :
    (c.exchange settings action).run net sockets context =
      ((c.exchange settings' action).run net sockets context).withTimeout
        (Exchange.timeoutFor settings c.timeout) := by
  unfold exchange
  rw [Exchange.exchange_run, Exchange.exchange_run]
  dsimp only [Option.getD_some]
  rw [Exchange.unbound_withTimeout net sockets _ c.host _ action c.bufferSize
    (Exchange.timeoutFor settings c.timeout) (Exchange.timeoutFor settings' c.timeout)]
  rfl

/-- Every exchange of a history runs as one on the same network does, under the settings of its
moment. -/
theorem run_of_mem_history {settings : Settings} {context : Log.Context} {deeds : List Deed}
    {past : Past} (h : past ∈ c.history settings context deeds) :
    ∃ context', past.run = (c.exchange past.settings past.action).run past.net 0 context' := by
  induction deeds generalizing settings context with
  | nil => cases h
  | cons deed deeds ih =>
    cases deed with
    | configure settings' => exact ih h
    | exchange action net =>
      rcases List.mem_cons.mp h with rfl | hLater
      · exact ⟨context, rfl⟩
      · exact ih hLater

/-- **A client keeps what it was built with.** After any history of settings and exchanges, an
exchange of a client ends as it would have when the client was new, and it makes the same calls: all
of them when the client has a time limit or the settings have none, and otherwise all but for the
limit that is set, which is the one of the settings of the moment. -/
theorem history_keeps {settings : Settings} {host : Option Text} {port : Option Port}
    {timeout : Timeout} {size : Option Int}
    (h : ofSettings settings host port timeout size = .ok c) (context : Log.Context)
    (deeds : List Deed) :
    ∀ past ∈ c.history settings context deeds,
      let fresh := (c.exchange settings past.action).run past.net 0 context
      past.run.result = fresh.result ∧
        (timeout ≠ none ∨ settings.socketTimeout ≠ none ∨ past.settings.socketTimeout = none →
          past.run.steps = fresh.steps) ∧
        (timeout = none → settings.socketTimeout = none →
          past.run.steps = fresh.steps.map (Step.withTimeout past.settings.socketTimeout)) := by
  intro past hPast fresh
  obtain ⟨context', hRun⟩ := c.run_of_mem_history hPast
  obtain ⟨hResult, hSteps⟩ := Dialogue.run_context_eq past.net
    (c.exchange past.settings past.action) 0 context' context
  rw [← hRun] at hResult hSteps
  have hFresh := c.exchange_withTimeout past.settings settings past.action past.net 0 context
  have hNew := c.exchange_withTimeout settings settings past.action past.net 0 context
  have hTimeout := ofSettings_eq_ok h
  have hSameResult : past.run.result = fresh.result := by
    rw [hResult, hFresh]
    rfl
  refine ⟨hSameResult, ?_, ?_⟩
  · intro hKept
    -- the limit that is set is the one that was set when the client was new
    have hSame : Exchange.timeoutFor past.settings c.timeout =
        Exchange.timeoutFor settings c.timeout := by
      cases hLimit : c.timeout with
      | some limit => rfl
      | none =>
        rw [hLimit] at hTimeout
        obtain ⟨rfl, hNone⟩ := Option.or_eq_none_iff.mp hTimeout.symm
        rcases hKept with hGiven | hSet | hNow
        · exact absurd rfl hGiven
        · exact absurd hNone hSet
        · exact hNow.trans hNone.symm
    rw [hSteps, hFresh, hSame, ← hNew]
  · rintro rfl hNone
    rw [hNone] at hTimeout
    rw [hSteps, hFresh, hTimeout]
    rfl

/-- A client with a limit of three seconds, after the settings have come to block and to name
another daemon: its exchange is the one that it would have made when it was new. -/
theorem history_keeps_of_limit :
    let built : Settings := { port := some "2958" }
    let later : Settings := { port := some "1", socketTimeout := none, bufferSize := 1 }
    let candidate : Endpoint := ⟨.v4 "192.0.2.1" 2958, Endpoint.stream, Endpoint.tcp⟩
    let net : Network := ⟨.ok [candidate], fun _ => {}, .null⟩
    let c : Client := ⟨none, "2958", some (.whole 3), 2048⟩
    let past : Past := ⟨later, .status, net, (c.exchange later .status).run net 0 []⟩
    let fresh := (c.exchange built .status).run net 0 []
    ofSettings built none none (some (.whole 3)) none = .ok c ∧
      c.history built [] [.configure later, .exchange .status net] = [past] ∧
      past.run.result = fresh.result ∧ past.run.steps = fresh.steps ∧
      fresh.steps.map Step.call =
        [.lookup none "2958", .create candidate, .setTimeout 0 (some (.whole 3)),
          .connect 0 candidate.address, .send 0 Action.status.toBytes, .receive 0 2048,
          .close 0] := by
  intro built later candidate net c past fresh
  have hBuilt : ofSettings built none none (some (.whole 3)) none = .ok c := rfl
  have hHistory : c.history built [] [.configure later, .exchange .status net] = [past] := rfl
  have hPast : past ∈ c.history built [] [.configure later, .exchange .status net] := by
    rw [hHistory]
    exact List.mem_singleton_self past
  obtain ⟨hResult, hSteps, -⟩ := history_keeps c hBuilt [] _ past hPast
  exact ⟨hBuilt, hHistory, hResult, hSteps (.inl nofun), rfl⟩

/-- A client that is built to block sets a limit once the settings have one. -/
theorem not_kept_of_blocking :
    let built : Settings := { port := some "2958", socketTimeout := none }
    let later : Settings := { built with socketTimeout := some (.whole 5) }
    let candidate : Endpoint := ⟨.v4 "192.0.2.1" 2958, Endpoint.stream, Endpoint.tcp⟩
    let net : Network := ⟨.ok [candidate], fun _ => {}, .null⟩
    let c : Client := ⟨none, "2958", none, 2048⟩
    let past : Past := ⟨later, .status, net, (c.exchange later .status).run net 0 []⟩
    ofSettings built none none none none = .ok c ∧
      c.history built [] [.configure later, .exchange .status net] = [past] ∧
      past.run.steps ≠ ((c.exchange built .status).run net 0 []).steps := by
  intro built later candidate net c past
  refine ⟨rfl, rfl, ?_⟩
  intro hSteps
  -- the third call sets the limit
  have hThird := congrArg (fun steps : List Step => steps[2]?) hSteps
  injection hThird with hThird
  injection hThird with _ hCall
  injection hCall with _ hLimit
  cases hLimit

end Client

end OscMonitor
