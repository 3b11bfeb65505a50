import OscMonitor.Proofs.CommandLine.Outcome
import OscMonitor.Proofs.Exchange.Client
import OscMonitor.Proofs.Settings.Resolve

/-!
# Time limits

The time limit of an exchange is its argument, or what the installation has set. It passes through
up to three hands before it is set on a socket: the settings, the client and the exchange. Settings
and exchange both take a limit of no time at all for none, and doing so twice makes no difference.

So on every socket the limit is the one that was asked for, when it is positive, and none, when it
is zero or negative; whether the exchange is made directly, by a client or by the command. A limit
that is not a number is neither, and it is set as it is.

Main results:

* `Sources.Asks` — the limit that is asked for.
* `Settings.socketTimeout_of_resolve` — the limit of the settings.
* `Exchange.timeLimit_of_mem_steps` — every limit that an exchange sets is the one of the exchange.
* `Settings.timeLimits` — the limits that are set by an exchange, a client and the command.
-/

namespace OscMonitor

/-- A limit that is normal is normal already. -/
theorem Timeout.normalize_normalize (t : Timeout) : normalize (normalize t) = normalize t := by
  simp only [normalize, Option.filter_filter, Bool.and_self]

/-! ## The limit of the settings -/

/-- The time limit that is asked for: the argument, if there is one; else what the value of the
installation spells, or the standard limit where there is no value. -/
inductive Sources.Asks (sources : Sources) : Timeout → Seconds → Prop where
  | argument (s : Seconds) : Asks sources (some s) s
  | value {t : Text} {x : Double} (hValue : sources.value? .socketTimeout = some t)
    (hSpells : Numeral.SpellsReal t x) : Asks sources none (.real x)
  | standard {s : Seconds} (hNone : sources.value? .socketTimeout = none)
    (hStandard : ({} : Settings).socketTimeout = some s) : Asks sources none s

/-- The settings have a limit to ask for, and theirs is the normal form of it. -/
theorem Settings.socketTimeout_of_resolve {sources : Sources} {settings : Settings}
    (h : resolve sources = .ok settings) :
    ∃ limit, sources.Asks none limit ∧
      settings.socketTimeout = Timeout.normalize (some limit) := by
  obtain ⟨hSome, hNone⟩ := value_of_ofValues h .socketTimeout
  cases hValue : sources.value? .socketTimeout with
  | none =>
    -- the standard limit is positive
    exact ⟨_, .standard hValue rfl, hNone hValue⟩
  | some t =>
    obtain ⟨x, hSpells, hLimit⟩ := hSome t hValue
    exact ⟨_, .value hValue hSpells, Seconds.limits_iff.mp hLimit⟩

/-- Only one limit is asked for. -/
theorem Sources.Asks.unique {sources : Sources} {argument : Timeout} {s s' : Seconds}
    (h : sources.Asks argument s) (h' : sources.Asks argument s') : s = s' := by
  cases h with
  | argument =>
    cases h'
    rfl
  | value hValue hSpells =>
    cases h' with
    | value hValue' hSpells' =>
      obtain rfl := Option.some.inj (hValue.symm.trans hValue')
      rw [hSpells.unique hSpells']
    | standard hNone _ => cases hNone.symm.trans hValue
  | standard hNone hStandard =>
    cases h' with
    | value hValue _ => cases hNone.symm.trans hValue
    | standard _ hStandard' => exact Option.some.inj (hStandard.symm.trans hStandard')

/-! ## The limit of an exchange -/

/-- Whatever is set on a socket is set for the limit `s`. -/
def Seconds.LimitsAll (s : Seconds) (steps : List Step) : Prop :=
  ∀ st ∈ steps, ∀ socket t, st.call = .setTimeout socket t → s.Limits t

namespace Exchange

/-- Every limit that an exchange sets is the one of the exchange. -/
theorem timeLimit_of_mem_steps (settings : Settings) (host : Option Text) (port : Port)
    (action : Action) (timeout : Timeout) (size : Option Int) (net : Network) (sockets : Nat)
    (context : Log.Context) {st : Step} {socket : Nat} {t : Timeout}
    (hStep : st ∈ ((exchange settings host port action timeout size).run net sockets context).steps)
    (hCall : st.call = .setTimeout socket t) : t = timeoutFor settings timeout := by
  rw [exchange_run] at hStep
  dsimp only at hStep
  -- a run with its own limit in place of every limit is the run itself
  rw [unbound_withTimeout net sockets _ host port.text action _ (timeoutFor settings timeout)
    (timeoutFor settings timeout)] at hStep
  obtain ⟨st', -, rfl⟩ := List.mem_map.mp hStep
  unfold Step.withTimeout Call.withTimeout at hCall
  dsimp only at hCall
  split at hCall
  · exact (Call.setTimeout.inj hCall).2.symm
  · next hOther => exact absurd hCall (hOther _ _)

end Exchange

/-- The command makes no calls but those of its dialogue. -/
theorem CommandLine.perform_steps (s : Settings) (o : Options) (net : Network) (m : Log.Moment) :
    (perform s o net m).steps = [] ∨
      (perform s o net m).steps = ((converse s o).run net 0 []).steps := by
  unfold perform
  dsimp only
  split
  · exact .inl rfl
  · split
    · exact .inr rfl
    · exact .inr rfl
    · exact .inr (withHelp_outcome ..).2
    · exact .inr rfl

namespace Settings

section Limit

variable {settings : Settings} {argument limit : Timeout}
  (hSettings : settings.socketTimeout = Timeout.normalize limit)
include hSettings

/-- The limit of an exchange is the normal form of what was asked for. -/
theorem timeoutFor_eq :
    Exchange.timeoutFor settings argument = Timeout.normalize (argument.or limit) := by
  match argument with
  | none => exact hSettings
  | some s => rfl

/-- The limit of a client stands for the same. -/
theorem timeoutFor_or :
    Exchange.timeoutFor settings (argument.or settings.socketTimeout) =
      Timeout.normalize (argument.or limit) := by
  match argument with
  | some s => rfl
  | none =>
    rw [Option.none_or, Option.none_or, timeoutFor_eq hSettings, hSettings]
    match hLimit : Timeout.normalize limit with
    | none => exact hLimit
    | some s =>
      rw [Option.some_or, ← hLimit, Timeout.normalize_normalize]

end Limit

/-- **Time limits are positive, or there is none.** For every installation and every argument there
is one limit that is asked for: the argument, or else what the installation asks for. Whatever an
exchange, a client or the command sets on a socket is then this limit, when it is positive or not a
number, and no limit when it is zero or negative.

The limit of the installation is read off the value of its setting by the grammar of spellings, not
by the reader of the settings; and it is said by the value of a double what is positive. -/
theorem timeLimits {sources : Sources} {settings : Settings}
    (hSettings : resolve sources = .ok settings) (argument : Timeout) :
    (∃ s, sources.Asks argument s) ∧ ∀ s, sources.Asks argument s →
      (∀ host port action size net sockets context, s.LimitsAll
        ((exchange settings host port action argument size).run net sockets context).steps) ∧
      (∀ host port size c, Client.ofSettings settings host port argument size = .ok c →
        ∀ action net sockets context,
          s.LimitsAll ((c.exchange settings action).run net sockets context).steps) ∧
      (∀ arguments options, CommandLine.read arguments = .ok (.exchange options) →
        options.timeout.map .real = argument →
          ∀ net m, s.LimitsAll (CommandLine.invoke settings arguments net m).steps) := by
  -- the settings have the normal form of the limit that is set
  obtain ⟨limit, hLimit, hNormal⟩ := socketTimeout_of_resolve hSettings
  have hAsked : ∀ s, sources.Asks argument s → argument.or (some limit) = some s := by
    intro s hs
    rcases argument with - | a
    · rw [hs.unique hLimit]
      rfl
    · rw [hs.unique (.argument a)]
      rfl
  refine ⟨?_, fun s hs => ?_⟩
  · rcases argument with - | s
    · exact ⟨limit, hLimit⟩
    · exact ⟨s, .argument s⟩
  have hLimits : s.Limits (Timeout.normalize (argument.or (some limit))) := by
    rw [hAsked s hs]
    exact s.limits_normalize
  have hExchange : ∀ host port action size net sockets context, s.LimitsAll
      ((exchange settings host port action argument size).run net sockets context).steps := by
    intro host port action size net sockets context st hStep socket t hCall
    rw [Exchange.timeLimit_of_mem_steps settings host port action argument size net sockets context
      hStep hCall, timeoutFor_eq hNormal]
    exact hLimits
  refine ⟨hExchange, ?_, ?_⟩
  · -- a client has normalized its limit before, and normalizing it again changes nothing
    intro host port size c hClient action net sockets context st hStep socket t hCall
    rw [Exchange.timeLimit_of_mem_steps settings c.host (.name c.port) action c.timeout
      (some c.bufferSize) net sockets context hStep hCall, Client.ofSettings_eq_ok hClient,
      timeoutFor_or hNormal]
    exact hLimits
  · -- the command makes the calls of one exchange, or none
    intro arguments options hRead hTimeout net m st hStep socket t hCall
    rw [CommandLine.invoke, hRead] at hStep
    dsimp only at hStep
    rcases CommandLine.perform_steps settings options net m with hNone | hSteps
    · rw [hNone] at hStep
      cases hStep
    · rw [hSteps] at hStep
      rcases hPort : CommandLine.portOf settings options with - | port
      · rw [CommandLine.converse_run_none settings options hPort] at hStep
        cases hStep
      · rw [CommandLine.converse_run settings options hPort, CommandLine.asked, hTimeout] at hStep
        exact hExchange _ _ _ _ _ _ _ st hStep socket t hCall

/-- Without any values, the settings are the standard ones. -/
theorem resolve_nil : resolve ⟨[], []⟩ = .ok {} := by
  have hFile : EnvFile.values [] [] = [] := by cbv
  have hValues : (⟨[], []⟩ : Sources).value? = fun _ => none := by
    funext setting
    rw [Sources.value?, hFile]
    rfl
  rw [resolve, hValues]
  rfl

/-- A limit of zero seconds is set as none. -/
theorem timeLimits_of_zero :
    let sources : Sources := ⟨[], []⟩
    let candidate : Endpoint := ⟨.v4 "192.0.2.1" 2958, Endpoint.stream, Endpoint.tcp⟩
    let net : Network := ⟨.ok [candidate], fun _ => {}, .null⟩
    let run :=
      (exchange {} (some "daemon") (.name "2958") .status (some (.whole 0)) none).run net 0 []
    resolve sources = .ok {} ∧
      run.steps.map Step.call =
        [.lookup (some "daemon") "2958", .create candidate, .setTimeout 0 none,
          .connect 0 candidate.address, .send 0 Action.status.toBytes, .receive 0 2048,
          .close 0] ∧
      (Seconds.whole 0).LimitsAll run.steps := by
  intro sources candidate net run
  have hSettings : resolve sources = .ok {} := resolve_nil
  obtain ⟨hExchange, -⟩ := (timeLimits hSettings (some (.whole 0))).2 _ (.argument _)
  exact ⟨hSettings, rfl, hExchange _ _ _ _ _ _ _⟩

/-- A limit that is not a number is set, though it is not positive. -/
theorem limit_not_positive :
    let candidate : Endpoint := ⟨.v4 "192.0.2.1" 2958, Endpoint.stream, Endpoint.tcp⟩
    let net : Network := ⟨.ok [candidate], fun _ => {}, .null⟩
    let run :=
      (exchange {} (some "daemon") (.name "2958") .status (some (.real .nan)) none).run net 0 []
    resolve ⟨[], []⟩ = .ok {} ∧
      Call.setTimeout 0 (some (.real .nan)) ∈ run.steps.map Step.call ∧
      ¬ (Seconds.real .nan).IsPositive := by
  intro candidate net run
  -- the network sets every limit here, so the exchange runs to its end and closes the socket
  have hCalls : run.steps.map Step.call =
      [.lookup (some "daemon") "2958", .create candidate, .setTimeout 0 (some (.real .nan)),
        .connect 0 candidate.address, .send 0 Action.status.toBytes, .receive 0 2048,
        .close 0] := rfl
  refine ⟨resolve_nil, ?_, ?_⟩
  · rw [hCalls]
    exact List.mem_cons_of_mem _ (List.mem_cons_of_mem _ List.mem_cons_self)
  · rintro (hInfinite | ⟨q, hValue, -⟩)
    · cases hInfinite
    · cases hValue

end Settings

end OscMonitor
