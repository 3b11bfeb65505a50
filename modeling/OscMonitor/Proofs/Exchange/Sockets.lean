import Mathlib.Data.List.Perm.Subperm
import OscMonitor.Proofs.Exchange.Course

/-!
# The sockets of an exchange

An exchange holds at most one socket at a time. It closes every socket that it creates, once and for
all, whatever comes of the calls on it, with one exception: a socket whose time limit or connection
is refused for a reason that no stage expects, such as a time limit that cannot be set, is left
open.

Nothing is assumed of the network: it answers every call as it likes, and each answer may be a
refusal for any reason. A socket goes by the number of those that were asked for before it, so that
one which could not be created has a number too, but is never created and never held. What is open
at a moment is read off the calls alone: the sockets that were created up to then and not closed. A
close counts as one even if it is refused, as nothing more is done about a socket after it.

A trace is not looked at as a whole. `Orderly` follows it call by call and keeps only the socket
that is held, which is what each stage hands on to the next: the candidates are tried with none
held, the conversation takes over the socket that connected, and the exchange ends with none, or
with the one that was left open. What is said of counts and of prefixes then holds of every orderly
trace, so no stage has to be looked at again for it.

* `Orderly` — a trace of calls that holds at most one socket at a time.
* `Orderly.count_closed` — what such a trace creates and no longer holds is closed once.
* `connectAfter_orderly`, `onSocket_orderly` — the stages of an exchange have such traces.
* `exchange_releases` — every socket is closed exactly once, except for the ones left open.
-/

namespace OscMonitor

/-! ## What a trace does to sockets -/

namespace Step

/-- The socket that a step creates. -/
def created? (net : Network) (st : Step) : Option Nat :=
  match st.call with
  | .create _ => if (net.socket st.sockets).create.isNone then some st.sockets else none
  | _ => none

/-- The socket that a step acts on. -/
def socket? (st : Step) : Option Nat :=
  match st.call with
  | .setTimeout s _ | .connect s _ | .send s _ | .receive s _ | .close s => some s
  | .lookup .. | .create _ => none

/-- The socket that a step closes. -/
def closed? (st : Step) : Option Nat :=
  match st.call with
  | .close s => some s
  | _ => none

end Step

/-- The sockets that a trace creates, in order. -/
def createdIn (net : Network) (steps : List Step) : List Nat := steps.filterMap (Step.created? net)

/-- The sockets that a trace closes, in order. -/
def closedIn (steps : List Step) : List Nat := steps.filterMap Step.closed?

/-- The sockets that are open after a trace. -/
def openAfter (net : Network) (steps : List Step) : List Nat :=
  (createdIn net steps).filter fun s => !(closedIn steps).contains s

theorem createdIn_cons (net : Network) (st : Step) (steps : List Step) :
    createdIn net (st :: steps) = (st.created? net).toList ++ createdIn net steps := by
  unfold createdIn
  cases h : st.created? net <;> simp [h]

theorem closedIn_cons (st : Step) (steps : List Step) :
    closedIn (st :: steps) = st.closed?.toList ++ closedIn steps := by
  unfold closedIn
  cases h : st.closed? <;> simp [h]

theorem createdIn_append (net : Network) (steps steps' : List Step) :
    createdIn net (steps ++ steps') = createdIn net steps ++ createdIn net steps' :=
  List.filterMap_append

namespace Step

variable {net : Network} {n : Nat} {e : Endpoint}

theorem created?_of_none (h : (net.socket n).create = none) :
    (⟨n, .create e⟩ : Step).created? net = some n := by
  simp [created?, h]

theorem created?_of_ne_none (h : (net.socket n).create ≠ none) :
    (⟨n, .create e⟩ : Step).created? net = none := by
  simp [created?, h]

theorem created?_of_socket? {st : Step} {s : Nat} (h : st.socket? = some s) :
    st.created? net = none := by
  obtain ⟨k, c⟩ := st
  cases c with
  | create e => cases h
  | _ => rfl

end Step

/-- A trace that holds at most one socket at a time and acts on no other. From `n` sockets that have
been asked for and the socket that is held it leads to `n'` sockets and the one held then. A socket
is asked for only while none is held, and only the one that is held can be acted on or closed; a
look-up is no business of a socket's. The relation says nothing of the results of the calls beyond
whether a socket was created. -/
inductive Orderly (net : Network) : Nat → Option Nat → List Step → Nat → Option Nat → Prop where
  | nil {n : Nat} {held : Option Nat} : Orderly net n held [] n held
  | lookup {n n' k : Nat} {held held' : Option Nat} {steps : List Step} {host : Option Text}
      {port : Text} :
      Orderly net n held steps n' held' →
      Orderly net n held (⟨k, .lookup host port⟩ :: steps) n' held'
  | uncreated {n n' : Nat} {held' : Option Nat} {steps : List Step} {e : Endpoint}
      (h : (net.socket n).create ≠ none) :
      Orderly net (n + 1) none steps n' held' →
      Orderly net n none (⟨n, .create e⟩ :: steps) n' held'
  | created {n n' : Nat} {held' : Option Nat} {steps : List Step} {e : Endpoint}
      (h : (net.socket n).create = none) :
      Orderly net (n + 1) (some n) steps n' held' →
      Orderly net n none (⟨n, .create e⟩ :: steps) n' held'
  | act {n n' s : Nat} {held' : Option Nat} {steps : List Step} {st : Step}
      (h : st.socket? = some s) (hClosed : st.closed? = none) :
      Orderly net n (some s) steps n' held' →
      Orderly net n (some s) (st :: steps) n' held'
  | close {n n' k s : Nat} {held' : Option Nat} {steps : List Step} :
      Orderly net n none steps n' held' →
      Orderly net n (some s) (⟨k, .close s⟩ :: steps) n' held'

namespace Orderly

variable {net : Network} {n n' n'' : Nat} {held held' held'' : Option Nat}
variable {steps steps' : List Step}

/-- One orderly trace after the other, where the second begins with what the first one holds. -/
theorem append (h : Orderly net n held steps n' held')
    (h' : Orderly net n' held' steps' n'' held'') :
    Orderly net n held (steps ++ steps') n'' held'' := by
  induction h with
  | nil => exact h'
  | lookup _ ih => exact .lookup (ih h')
  | uncreated hCreate _ ih => exact .uncreated hCreate (ih h')
  | created hCreate _ ih => exact .created hCreate (ih h')
  | act hSocket hClosed _ ih => exact .act hSocket hClosed (ih h')
  | close _ ih => exact .close (ih h')

/-- A trace is orderly up to every place and from there on. So what holds at the end of every
orderly trace holds at every moment of one. -/
theorem split (h : Orderly net n held (steps ++ steps') n'' held'') :
    ∃ n' held', Orderly net n held steps n' held' ∧ Orderly net n' held' steps' n'' held'' := by
  -- on the steps before the place: each is of the same kind in the part as in the whole
  induction steps generalizing n held with
  | nil => exact ⟨n, held, .nil, h⟩
  | cons st steps ih =>
    rw [List.cons_append] at h
    cases h with
    | lookup h =>
      obtain ⟨m, held', hBefore, hAfter⟩ := ih h
      exact ⟨m, held', .lookup hBefore, hAfter⟩
    | uncreated hCreate h =>
      obtain ⟨m, held', hBefore, hAfter⟩ := ih h
      exact ⟨m, held', .uncreated hCreate hBefore, hAfter⟩
    | created hCreate h =>
      obtain ⟨m, held', hBefore, hAfter⟩ := ih h
      exact ⟨m, held', .created hCreate hBefore, hAfter⟩
    | act hSocket hClosed h =>
      obtain ⟨m, held', hBefore, hAfter⟩ := ih h
      exact ⟨m, held', .act hSocket hClosed hBefore, hAfter⟩
    | close h =>
      obtain ⟨m, held', hBefore, hAfter⟩ := ih h
      exact ⟨m, held', .close hBefore, hAfter⟩

/-- Sockets are numbered in the order in which they are asked for. -/
theorem held_lt (h : Orderly net n held steps n' held') (hHeld : ∀ s, held = some s → s < n) :
    n ≤ n' ∧ ∀ s, held' = some s → s < n' := by
  induction h with
  | nil => exact ⟨Nat.le_refl _, hHeld⟩
  | lookup _ ih => exact ih hHeld
  | uncreated _ _ ih =>
    obtain ⟨hLe, hLt⟩ := ih nofun
    exact ⟨Nat.le_of_succ_le hLe, hLt⟩
  | @created n _ _ _ _ _ _ ih =>
    obtain ⟨hLe, hLt⟩ := ih fun s hs => Option.some.inj hs ▸ Nat.lt_succ_self n
    exact ⟨Nat.le_of_succ_le hLe, hLt⟩
  | act _ _ _ ih => exact ih hHeld
  | close _ ih => exact ih nofun

/-- No step acts on a socket that was asked for before and is not held. -/
theorem socket?_ne (h : Orderly net n held steps n' held') {s : Nat} (hs : s < n)
    (hHeld : held ≠ some s) : ∀ st ∈ steps, st.socket? ≠ some s := by
  induction h with
  | nil => exact fun _ hst => absurd hst List.not_mem_nil
  | lookup _ ih => exact List.forall_mem_cons.mpr ⟨nofun, ih hs hHeld⟩
  | uncreated _ _ ih => exact List.forall_mem_cons.mpr ⟨nofun, ih (Nat.lt_succ_of_lt hs) nofun⟩
  | created _ _ ih =>
    refine List.forall_mem_cons.mpr ⟨nofun, ih (Nat.lt_succ_of_lt hs) ?_⟩
    exact fun hSome => absurd (Option.some.inj hSome) (Nat.ne_of_gt hs)
  | act hSocket _ _ ih =>
    refine List.forall_mem_cons.mpr ⟨?_, ih hs hHeld⟩
    rwa [hSocket]
  | close _ ih => exact List.forall_mem_cons.mpr ⟨hHeld, ih hs nofun⟩

/-- No socket is created twice, nor one that was asked for before. -/
theorem nodup_created (h : Orderly net n held steps n' held') :
    (createdIn net steps).Nodup ∧ ∀ s ∈ createdIn net steps, n ≤ s := by
  -- only a call that creates counts, and its socket is the next number
  induction h with
  | nil => exact ⟨List.nodup_nil, nofun⟩
  | lookup _ ih => exact ih
  | uncreated hCreate _ ih =>
    rw [createdIn_cons, Step.created?_of_ne_none hCreate]
    exact ⟨ih.1, fun s hs => Nat.le_of_succ_le (ih.2 s hs)⟩
  | @created n _ _ _ _ hCreate _ ih =>
    rw [createdIn_cons, Step.created?_of_none hCreate]
    refine ⟨List.nodup_cons.mpr ⟨fun hMem => ?_, ih.1⟩,
      List.forall_mem_cons.mpr ⟨Nat.le_refl _, ?_⟩⟩
    · exact absurd (ih.2 n hMem) (Nat.not_succ_le_self n)
    · exact fun s hs => Nat.le_of_succ_le (ih.2 s hs)
  | act hSocket _ _ ih =>
    rw [createdIn_cons, Step.created?_of_socket? hSocket]
    exact ih
  | close _ ih => exact ih

/-- What a trace holds and creates is what it closes and holds at its end. Nothing is lost on the
way and nothing closed twice: this balance is kept by every call, and all counts come from it. -/
theorem count_add (h : Orderly net n held steps n' held') (s : Nat) :
    (createdIn net steps).count s + held.toList.count s =
      (closedIn steps).count s + held'.toList.count s := by
  induction h with
  | nil => rfl
  | lookup _ ih => exact ih
  | uncreated hCreate _ ih =>
    rw [createdIn_cons, Step.created?_of_ne_none hCreate]
    exact ih
  | @created n _ _ steps e hCreate _ ih =>
    -- what is created is held from now on
    have hClosed : closedIn (⟨n, .create e⟩ :: steps) = closedIn steps := rfl
    rw [createdIn_cons, Step.created?_of_none hCreate, hClosed, ← ih, List.count_append,
      Nat.add_comm (List.count s _)]
    rfl
  | act hSocket hClosed _ ih =>
    rw [createdIn_cons, closedIn_cons, Step.created?_of_socket? hSocket, hClosed]
    exact ih
  | @close _ _ k s' held' steps _ ih =>
    -- what was held moves to what is closed
    have hClosed : closedIn (⟨k, .close s'⟩ :: steps) = s' :: closedIn steps := rfl
    have hCreated : createdIn net (⟨k, .close s'⟩ :: steps) = createdIn net steps := rfl
    rw [hClosed, hCreated, List.count_cons]
    simp only [Option.toList_none, List.count_nil, Option.toList_some, List.count_singleton] at ih ⊢
    omega

/-- Of the sockets that a trace creates, the one that it holds at its end is not closed, and every
other one is closed once. -/
theorem count_closed (h : Orderly net n none steps n' held') {s : Nat}
    (hs : s ∈ createdIn net steps) :
    (closedIn steps).count s = if held' = some s then 0 else 1 := by
  have hOnce : (createdIn net steps).count s = 1 := List.count_eq_one_of_mem h.nodup_created.1 hs
  have hCount := h.count_add s
  rw [hOnce] at hCount
  cases held' with
  | none => simpa using hCount.symm
  | some s' =>
    by_cases hEq : s' = s
    · simpa [hEq] using hCount
    · simpa [hEq] using hCount.symm

/-- What is open after an orderly trace is what it holds. -/
theorem held_of_mem_openAfter (h : Orderly net n none steps n' held') {s : Nat}
    (hs : s ∈ openAfter net steps) : held' = some s := by
  obtain ⟨hCreated, hOpen⟩ := List.mem_filter.mp hs
  have hCount := h.count_closed hCreated
  by_contra hNot
  rw [if_neg hNot] at hCount
  have hMem : s ∈ closedIn steps := List.count_pos_iff.mp (by omega)
  simp [hMem] at hOpen

/-- At most one socket is open after an orderly trace: the one that it holds. -/
theorem length_openAfter_le (h : Orderly net n none steps n' held') :
    (openAfter net steps).length ≤ 1 := by
  have hNodup : (openAfter net steps).Nodup := h.nodup_created.1.filter _
  cases held' with
  | none =>
    have hEmpty : openAfter net steps = [] := List.eq_nil_iff_forall_not_mem.mpr
      fun s hs => nomatch h.held_of_mem_openAfter hs
    rw [hEmpty]
    exact Nat.zero_le 1
  | some s =>
    have hSub : openAfter net steps ⊆ [s] := fun s' hs' =>
      List.mem_singleton.mpr (Option.some.inj (h.held_of_mem_openAfter hs')).symm
    exact (hNodup.subperm hSub).length_le

/-- Nothing acts on a socket after it is closed. -/
theorem socket?_ne_of_closed (h : Orderly net n none steps n' held') {before after : List Step}
    {k s : Nat} (hSteps : steps = before ++ ⟨k, .close s⟩ :: after) :
    ∀ st ∈ after, st.socket? ≠ some s := by
  subst hSteps
  obtain ⟨m, held, hBefore, hAfter⟩ := h.split
  cases hAfter with
  | act hSocket hClosed _ => cases hClosed
  | close hAfter =>
    exact hAfter.socket?_ne ((hBefore.held_lt nofun).2 s rfl) nofun

/-- What is held at the end was created. -/
theorem mem_created_of_held (h : Orderly net n none steps n' held') {s : Nat}
    (hHeld : held' = some s) : s ∈ createdIn net steps := by
  have hCount := h.count_add s
  rw [hHeld, Option.toList_none, List.count_nil, Option.toList_some, List.count_singleton_self]
    at hCount
  exact List.count_pos_iff.mp (by omega)

end Orderly

/-! ## The stages -/

/-- Whether the time limit or the connection of a socket is refused for a reason that no stage
expects. -/
def SocketBehaviour.isAbandoned (b : SocketBehaviour) : Bool :=
  b.opening.any fun fault => !fault.isExternal

namespace Exchange

variable (net : Network) (sockets : Nat) (context : Log.Context)
variable (host : Option Text) (port : Text) (timeout : Timeout) (action : Action) (size : Int)

theorem openingSteps_orderly (n k s : Nat) (a : Address) :
    Orderly net n (some s) (openingSteps net k timeout s a) n (some s) := by
  unfold openingSteps
  split
  · exact .act rfl rfl (.act rfl rfl .nil)
  · exact .act rfl rfl .nil

theorem createdIn_openingSteps (k s : Nat) (a : Address) :
    createdIn net (openingSteps net k timeout s a) = [] := by
  unfold openingSteps
  split <;> rfl

/-- Trying the candidates holds one socket at a time. Of the sockets that it creates, one is still
held at the end if it is connected, or if it could not be opened for a reason that no stage
expects. The result tells the two apart: with a socket as the result it is this one that is held and
it is open, and with a failure nothing that is held could be opened. -/
theorem connectAfter_orderly (attempts : Nat) (endpoints : List Endpoint) :
    let run := (connectAfter host port timeout attempts endpoints).run net sockets context
    ∃ held, Orderly net sockets none run.steps run.sockets held ∧
      (∀ s ∈ createdIn net run.steps, held = some s ↔
        (net.socket s).opening = none ∨ (net.socket s).isAbandoned = true) ∧
      match run.result.1 with
      | .ok s => held = some s ∧ (net.socket s).opening = none
      | .error _ => ∀ s, held = some s → (net.socket s).opening ≠ none := by
  -- induction on the candidates that are left; the sockets and attempts before them are arbitrary
  induction endpoints generalizing sockets attempts with
  | nil => exact ⟨none, .nil, nofun, nofun⟩
  | cons e rest ih =>
    intro run
    have hRun : run = _ :=
      connectAfter_run_cons net sockets context host port timeout attempts e rest
    obtain ⟨held, hOrderly, hLeft, hResult⟩ := ih (sockets + 1) (attempts + 1)
    rw [hRun]
    cases hCreate : (net.socket sockets).create with
    | some fault =>
      -- there is no socket; the next candidate is tried if the reason is one that is expected
      have hNone : (net.socket sockets).create ≠ none := hCreate ▸ nofun
      have hSkip : createdIn net [⟨sockets, .create e⟩] = [] := by
        rw [createdIn_cons, Step.created?_of_ne_none hNone]
        rfl
      dsimp only
      split
      · refine ⟨held, .uncreated hNone hOrderly, ?_, hResult⟩
        rw [Run.followedBy_steps, createdIn_append, hSkip]
        exact hLeft
      · refine ⟨none, .uncreated hNone .nil, ?_, nofun⟩
        rw [hSkip]
        exact nofun
    | none =>
      -- the socket is created and opened, as far as that goes
      have hOpened : Orderly net sockets none (⟨sockets, .create e⟩ ::
          openingSteps net (sockets + 1) timeout sockets e.address) (sockets + 1) (some sockets) :=
        .created hCreate (openingSteps_orderly net timeout _ _ _ _)
      have hOnly : createdIn net (⟨sockets, .create e⟩ ::
          openingSteps net (sockets + 1) timeout sockets e.address) = [sockets] := by
        rw [createdIn_cons, Step.created?_of_none hCreate, createdIn_openingSteps]
        rfl
      dsimp only
      cases hOpening : (net.socket sockets).opening with
      | none =>
        -- it is connected, and no further candidate is tried
        refine ⟨some sockets, hOpened, ?_, rfl, hOpening⟩
        rw [hOnly]
        exact List.forall_mem_singleton.mpr (iff_of_true rfl (.inl hOpening))
      | some fault =>
        dsimp only
        split
        · next hExternal =>
          -- it is closed again, and so not held when the next candidate is tried
          have hKept : (net.socket sockets).isAbandoned = false := by
            simp [SocketBehaviour.isAbandoned, hOpening, hExternal]
          have hClosed := hOpened.append (.close (k := sockets + 1) .nil)
          have hOnly' := (createdIn_append net _ [⟨sockets + 1, .close sockets⟩]).trans
            (congrArg (· ++ []) hOnly)
          rw [List.append_nil] at hOnly'
          have hNot : ¬ ((net.socket sockets).opening = none ∨
              (net.socket sockets).isAbandoned = true) := by
            simp [hOpening, hKept]
          split
          · refine ⟨held, hClosed.append hOrderly, ?_, hResult⟩
            rw [Run.followedBy_steps, createdIn_append, hOnly']
            -- the sockets of the other candidates have other numbers
            refine List.forall_mem_cons.mpr ⟨iff_of_false (fun hHeld => ?_) hNot, hLeft⟩
            have hLe := hOrderly.nodup_created.2 _ (hOrderly.mem_created_of_held hHeld)
            exact absurd hLe (Nat.not_succ_le_self sockets)
          · simp only [Run.followedBy_steps, Run.followedBy_sockets, List.append_nil]
            refine ⟨none, hClosed, ?_, nofun⟩
            rw [hOnly']
            exact List.forall_mem_singleton.mpr (iff_of_false nofun hNot)
        · next hInternal =>
          -- the failure passes every stage by, and the close with it
          have hLost : (net.socket sockets).isAbandoned = true := by
            simp [SocketBehaviour.isAbandoned, hOpening, hInternal]
          refine ⟨some sockets, hOpened, ?_, fun s hs => ?_⟩
          · rw [hOnly]
            exact List.forall_mem_singleton.mpr (iff_of_true rfl (.inr hLost))
          · rw [← Option.some.inj hs, hOpening]
            exact nofun

/-- A conversation on a socket ends with the close of that socket, whether or not anything was sent
and received, and whatever comes of the close itself. -/
theorem onSocket_orderly (s : Nat) :
    let run := (onSocket s action size).run net sockets context
    Orderly net sockets (some s) run.steps run.sockets none ∧ createdIn net run.steps = [] := by
  intro run
  obtain ⟨hSteps, hSockets, -⟩ := onSocket_course net sockets context action size s
  rw [hSteps, hSockets]
  split
  · exact ⟨.act rfl rfl (.act rfl rfl (.close .nil)), rfl⟩
  · exact ⟨.act rfl rfl (.close .nil), rfl⟩

/-- An exchange holds one socket at a time, and none at its end but one that is left open. Its parts
hand the socket on: the candidates leave one that is connected to the conversation, which closes it,
and otherwise nothing is held but what they left open themselves. -/
theorem unbound_orderly :
    let run := (unbound host port action timeout size).run net sockets context
    ∃ held, Orderly net sockets none run.steps run.sockets held ∧
      ∀ s ∈ createdIn net run.steps, held = some s ↔ (net.socket s).isAbandoned = true := by
  intro run
  have hRun : run = _ := Dialogue.run_bind_eq net sockets context (resolve host port) _
  rw [hRun, resolve_run]
  cases net.lookup with
  | error fault => exact ⟨none, .lookup .nil, fun _ hs => absurd hs List.not_mem_nil⟩
  | ok endpoints =>
    dsimp only
    obtain ⟨held, hOrderly, hLeft, hResult⟩ :=
      connectAfter_orderly net sockets context host port timeout 0 endpoints
    rw [Dialogue.run_bind_eq, connectFirst]
    generalize (connectAfter host port timeout 0 endpoints).run net sockets context = tried
      at hOrderly hLeft hResult
    cases hConnected : tried.result.1 with
    | error fault =>
      rw [hConnected] at hResult
      simp only [Run.followedBy_steps, Run.followedBy_sockets, Dialogue.run_pure, List.append_nil]
      refine ⟨held, .lookup hOrderly, fun s hs => ?_⟩
      -- what is held then is no socket that connects
      have hIff := hLeft s hs
      exact ⟨fun hHeld => (hIff.mp hHeld).resolve_left (hResult s hHeld),
        fun hLost => hIff.mpr (.inr hLost)⟩
    | ok s =>
      rw [hConnected] at hResult
      obtain ⟨rfl, hOpening⟩ := hResult
      obtain ⟨hSocket, hNothing⟩ := onSocket_orderly net tried.sockets tried.context action size s
      dsimp only
      rw [Dialogue.run_bind_eq]
      generalize (onSocket s action size).run net tried.sockets tried.context = onSocket
        at hSocket hNothing
      have hWhole : Orderly net sockets none
          (⟨sockets, .lookup host port⟩ :: (tried.steps ++ onSocket.steps)) onSocket.sockets none :=
        .lookup (hOrderly.append hSocket)
      -- the socket that is held then connects, and so no socket is left open
      have hNone : ∀ s' ∈ createdIn net (tried.steps ++ onSocket.steps),
          none = some s' ↔ (net.socket s').isAbandoned = true := by
        rw [createdIn_append, hNothing, List.append_nil]
        refine fun s' hs' => iff_of_false (Option.some_ne_none s').symm fun hLost => ?_
        obtain rfl := Option.some.inj ((hLeft s' hs').mpr (.inr hLost))
        simp [SocketBehaviour.isAbandoned, hOpening] at hLost
      -- what is logged at the end adds no call
      cases onSocket.result with
      | error fault =>
        simp only [Run.followedBy_steps, Run.followedBy_sockets, Dialogue.run_pure, List.append_nil]
        exact ⟨none, hWhole, hNone⟩
      | ok report =>
        simp only [Run.followedBy_steps, Run.followedBy_sockets, Dialogue.run_bind_eq,
          Dialogue.run_elapsed, Dialogue.run_done, note_run, Dialogue.run_pure, List.append_nil]
        exact ⟨none, hWhole, hNone⟩

/-- **The sockets of an exchange.** Whatever comes of the calls, at most one socket is open at any
moment of an exchange, and nothing is done on a socket after its close. Every socket that is created
has been closed exactly once at the end, unless its time limit or its connection was refused for a
reason that no stage expects: then it is left open.

The moments are the prefixes of the trace, and the end is that of the whole trace, be it a report, a
failure that is told or one that is not. The reasons that no stage expects are the faults of the
caller (`Fault.isExternal`), such as a time limit that is not a number. They go past every stage
from where the call was made, and so past the close that follows an expected refusal. -/
theorem exchange_releases (settings : Settings) (port : Port) (limit : Option Int) :
    let steps := ((exchange settings host port action timeout limit).run net sockets context).steps
    (∀ p, p <+: steps → (openAfter net p).length ≤ 1) ∧
      (∀ before k s after, steps = before ++ ⟨k, .close s⟩ :: after →
        ∀ st ∈ after, st.socket? ≠ some s) ∧
      ∀ s ∈ createdIn net steps,
        (closedIn steps).count s = if (net.socket s).isAbandoned then 0 else 1 := by
  intro steps
  have hSteps : steps = _ := congrArg Run.steps
    (exchange_run net sockets context host timeout action settings port limit)
  obtain ⟨held, hOrderly, hLeft⟩ := unbound_orderly net sockets
    (context.enter (.ofTarget host port.text action.name)) host port.text
    (timeoutFor settings timeout) action (limit.getD settings.bufferSize)
  dsimp only at hSteps
  rw [← hSteps] at hOrderly hLeft
  refine ⟨?_, fun _ _ _ _ hClose => hOrderly.socket?_ne_of_closed hClose, fun s hs => ?_⟩
  · -- every moment is the end of an orderly trace
    rintro p ⟨rest, hRest⟩
    rw [← hRest] at hOrderly
    obtain ⟨_, _, hBefore, -⟩ := hOrderly.split
    exact hBefore.length_openAfter_le
  · rw [hOrderly.count_closed hs]
    exact if_congr (hLeft s hs) rfl rfl

/-- A time limit that is not a number is refused when it is set, and the socket that it was to be
set for is left open. -/
theorem not_closed_of_time_limit :
    let candidate : Endpoint := ⟨.v4 "192.0.2.1" 2958, Endpoint.stream, Endpoint.tcp⟩
    let refused : Fault := ⟨.argument, none, "Invalid value NaN (not a number)"⟩
    let net : Network := ⟨.ok [candidate], fun _ => { setTimeout := some refused }, .null⟩
    let run :=
      (exchange {} (some "daemon") (.name "2958") .status (some (.real .nan)) none).run net 0 []
    run.steps.map Step.call =
        [.lookup (some "daemon") "2958", .create candidate, .setTimeout 0 (some (.real .nan))] ∧
      run.result = .error (.interrupted refused) ∧
      createdIn net run.steps = [0] ∧ closedIn run.steps = [] ∧ openAfter net run.steps = [0] :=
  ⟨rfl, rfl, rfl, rfl, rfl⟩

end Exchange

end OscMonitor
