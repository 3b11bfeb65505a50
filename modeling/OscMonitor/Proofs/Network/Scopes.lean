import OscMonitor.Exchange.Basic
import OscMonitor.Proofs.Network.Dialogue
import OscMonitor.Proofs.Text.Keyed

/-!
# What is bound within nested blocks

A block binds an exchange, runs its body, and unbinds the exchange however the body ends. Unbinding
takes the names of an exchange away, whoever bound them, so after a block they are bound to nothing:
neither to what was bound before the block nor to the exchange of a block around it.

Two gaps lie between a block and the scope that one expects of it, and both are stated exactly:

* **Around the block** — a name of an exchange that is bound before a block is lost after it. What
  was bound comes back just when none of these names was among it.
* **Within the block** — once a block within it is left, the events of a block no longer carry its
  exchange. `Scope` keeps a stack of what should be bound, and says where it is no longer so.

Main results:

* `WellNested.run_context` — what is bound after a dialogue whose blocks are well nested.
* `WellNested.bind` — well-nested dialogues, one after the other, are well nested; so an exchange,
  with all its stages, is one block (`exchange_eq_within`, `wellNested_unbound`).
* `wellNested_scopes` — what is bound after a block, and what every event carries.
-/

namespace OscMonitor

namespace Log.Context

variable {c c' : Context}

/-! ## Binding and unbinding -/

/-- Unbinding takes away what was bound to a name of an exchange just before. -/
theorem leave_insert {name : Text} (hName : name ∈ exchangeNames) (v : Value) (c : Context) :
    leave (Keyed.insert name v c) = c.leave := by
  have hGone : ∀ (w : Value) (rest : Context), leave ((name, w) :: rest) = rest.leave := by
    intro w rest
    simp [leave, hName]
  induction c with
  | nil => exact hGone v []
  | cons m c ih =>
    obtain ⟨key, w⟩ := m
    by_cases hKey : key = name
    · subst hKey
      rw [Keyed.insert, if_pos rfl, hGone, hGone]
    · rw [Keyed.insert, if_neg hKey]
      unfold leave at ih ⊢
      rw [List.filter_cons, List.filter_cons, ih]

/-- Nothing is left of an exchange that was bound, nor of what its names were bound to before. -/
theorem leave_enter (x : Exchange) (c : Context) : (c.enter x).leave = c.leave := by
  unfold enter
  rw [leave_insert (by decide), leave_insert (by decide), leave_insert (by decide)]

@[simp] theorem leave_leave (c : Context) : c.leave.leave = c.leave := by
  unfold leave
  rw [List.filter_filter]
  simp only [Bool.and_self]

/-- Unbinding changes nothing just when no name of an exchange is bound. -/
theorem leave_eq_self_iff : c.leave = c ↔ ∀ name ∈ exchangeNames, c.get? name = none := by
  rw [leave, List.filter_eq_self]
  simp only [Keyed.get?_eq_none_iff, Keyed.keys, List.mem_map, Bool.not_eq_true',
    List.contains_eq_mem, decide_eq_false_iff_not]
  constructor
  · rintro h name hName ⟨m, hm, rfl⟩
    exact h m hm hName
  · intro h m hm hName
    exact h m.1 hName ⟨m, hm, rfl⟩

theorem get?_leave (c : Context) (key : Text) :
    c.leave.get? key = if key ∈ exchangeNames then none else c.get? key := by
  have hFilter := Keyed.get?_filter (fun name => !exchangeNames.contains name) c key
  rw [leave, hFilter]
  by_cases hKey : key ∈ exchangeNames <;> simp [hKey]

/-! ## Contexts that bind the same -/

/-- Two contexts bind the same names to the same values, in whatever order. -/
def Same (c c' : Context) : Prop := ∀ key, c.get? key = c'.get? key

theorem Same.refl (c : Context) : c.Same c := fun _ => rfl

theorem Same.trans {c'' : Context} (h : c.Same c') (h' : c'.Same c'') : c.Same c'' :=
  fun key => (h key).trans (h' key)

/-- What an exchange binds hides what its names were bound to before. -/
theorem enter_same {x : Exchange} (h : ∀ key, key ∉ exchangeNames → c.get? key = c'.get? key) :
    (c.enter x).Same (c'.enter x) := by
  have hInsert : ∀ (o : Context) (key name : Text) (v : Value),
      (Keyed.insert name v o).get? key = if key = name then some v else o.get? key := by
    intro o key name v
    split
    · next hKey => rw [hKey, Keyed.get?_insert_self]
    · next hKey => rw [Keyed.get?_insert_of_ne _ _ hKey]
  intro key
  simp only [enter, hInsert]
  by_cases hOther : key ∈ exchangeNames
  · rw [exchangeNames, List.mem_cons, List.mem_pair] at hOther
    rcases hOther with rfl | rfl | rfl <;> rfl
  · rw [h key hOther]

theorem Same.enter (h : c.Same c') (x : Exchange) : (c.enter x).Same (c'.enter x) :=
  enter_same fun key _ => h key

theorem Same.leave (h : c.Same c') : c.leave.Same c'.leave := by
  intro key
  rw [get?_leave, get?_leave, h]

theorem same_enter_leave (x : Exchange) (c : Context) : (c.leave.enter x).Same (c.enter x) := by
  refine enter_same fun key hKey => ?_
  rw [get?_leave, if_neg hKey]

end Log.Context

namespace Dialogue

variable {α β γ : Type}

/-! ## Blocks -/

/-- A block: a dialogue during which an exchange is bound. It passes on whatever its body ends in,
a fault included. -/
def within (x : Log.Exchange) (body : Dialogue α) : Dialogue α :=
  enter x (body.bind fun result => leave (done result))

/-- The dialogues that bind and unbind by blocks only, which may stand within one another. -/
inductive WellNested : {α : Type} → Dialogue α → Prop
  | done {α : Type} (result : α) : WellNested (done result)
  | call {α : Type} {c : Call} {next : Except Fault c.Payload → Dialogue α}
      (h : ∀ answer, WellNested (next answer)) : WellNested (call c next)
  | note {α : Type} {e : Log.Event} {next : Dialogue α} (h : WellNested next) :
      WellNested (note e next)
  | elapsed {α : Type} {next : Value → Dialogue α} (h : ∀ v, WellNested (next v)) :
      WellNested (elapsed next)
  | block {α β : Type} {x : Log.Exchange} {body : Dialogue β} {next : β → Dialogue α}
      (hBody : WellNested body) (hNext : ∀ result, WellNested (next result)) :
      WellNested ((within x body).bind next)

theorem bind_assoc (d : Dialogue α) (f : α → Dialogue β) (g : β → Dialogue γ) :
    (d.bind f).bind g = d.bind fun a => (f a).bind g := by
  induction d with
  | done a => rfl
  | call c next ih => simp only [bind, ih]
  | note e next ih => simp only [bind, ih]
  | enter x next ih => simp only [bind, ih]
  | leave next ih => simp only [bind, ih]
  | elapsed next ih => simp only [bind, ih]

theorem bind_done (d : Dialogue α) : d.bind done = d := by
  induction d with
  | done a => rfl
  | call c next ih => simp only [bind, ih]
  | note e next ih => simp only [bind, ih]
  | enter x next ih => simp only [bind, ih]
  | leave next ih => simp only [bind, ih]
  | elapsed next ih => simp only [bind, ih]

namespace WellNested

variable {d : Dialogue α} {f : α → Dialogue β}

theorem bind (h : d.WellNested) (hf : ∀ a, (f a).WellNested) : (d >>= f).WellNested := by
  show (d.bind f).WellNested
  induction h with
  | done a => exact hf a
  | call _ ih => exact .call fun answer => ih answer hf
  | note _ ih => exact .note (ih hf)
  | elapsed _ ih => exact .elapsed fun v => ih v hf
  | block hBody _ _ ih =>
    rw [bind_assoc]
    exact .block hBody fun result => ih result hf

theorem pure (a : α) : (Pure.pure a : Dialogue α).WellNested := .done a

theorem ask (c : Call) : (Dialogue.ask c).WellNested := .call fun answer => .done answer

theorem say (e : Log.Event) : (Dialogue.say e).WellNested := .note (.done ())

theorem sayAll (events : List Log.Event) : (Dialogue.sayAll events).WellNested := by
  induction events with
  | nil => exact .done ()
  | cons e events ih => exact .note ih

theorem within (h : d.WellNested) (x : Log.Exchange) : (Dialogue.within x d).WellNested := by
  rw [← bind_done (Dialogue.within x d)]
  exact .block h .done

end WellNested

/-- A block runs as its body does while the exchange is bound. -/
theorem run_within (net : Network) (sockets : Nat) (c : Log.Context) (x : Log.Exchange)
    (body : Dialogue α) :
    (within x body).run net sockets c =
      let run := body.run net sockets (c.enter x)
      { run with context := run.context.leave } := by
  unfold within
  rw [run_enter, run_bind]
  simp [Run.followedBy]

/-- After a well-nested dialogue everything is bound as before, or the names of an exchange are
unbound. -/
theorem WellNested.run_context {d : Dialogue α} (h : d.WellNested) (net : Network) (sockets : Nat)
    (c : Log.Context) :
    (d.run net sockets c).context = c ∨ (d.run net sockets c).context = c.leave := by
  induction h generalizing sockets c with
  | done a => exact .inl rfl
  | call _ ih => exact ih _ _ _
  | note _ ih => exact ih _ _
  | elapsed _ ih => exact ih _ _ _
  | @block _ _ x body next _ _ ihBody ihNext =>
    rw [run_bind, run_within, Run.followedBy_context]
    -- whatever the body leaves bound, the names of an exchange are unbound at its end
    have hLeft : (body.run net sockets (c.enter x)).context.leave = c.leave := by
      rcases ihBody sockets (c.enter x) with hKept | hLost
      · rw [hKept, Log.Context.leave_enter]
      · rw [hLost, Log.Context.leave_leave, Log.Context.leave_enter]
    dsimp only
    rw [hLeft]
    rcases ihNext _ _ c.leave with hKept | hLost
    · exact .inr hKept
    · rw [hLost, Log.Context.leave_leave]
      exact .inr rfl

/-- After a block the names of an exchange are unbound, and everything else is bound as before. -/
theorem WellNested.run_within_context {body : Dialogue α} (h : body.WellNested) (net : Network)
    (sockets : Nat) (c : Log.Context) (x : Log.Exchange) :
    ((Dialogue.within x body).run net sockets c).context = c.leave := by
  rw [run_within]
  dsimp only
  rcases h.run_context net sockets (c.enter x) with hKept | hLost
  · rw [hKept, Log.Context.leave_enter]
  · rw [hLost, Log.Context.leave_leave, Log.Context.leave_enter]

/-! ## Scopes -/

/-- What should be bound within a block: what was in force when it was entered, and its exchange. -/
structure Scope where
  context : Log.Context
  -- Whether a block within this one has been left.
  left : Bool := false

/-- What is bound in a scope: what should be, until a block within it is left. -/
def Scope.bound (s : Scope) : Log.Context := if s.left then s.context.leave else s.context

/-- The events of a dialogue, each with the scope of the innermost block that is open, and the
scopes at the end. -/
structure Scopes where
  notes : List (Scope × Log.Event)
  scope : Scope
  -- The scopes around it, the innermost first.
  around : List Scope

/-- Follows the blocks of a dialogue on a network: a block that is entered has a scope of its own,
and with its end the scope around it is the innermost one again. -/
def inScopes (net : Network) (sockets : Nat) (scope : Scope) (around : List Scope) :
    Dialogue α → Scopes
  | done _ => ⟨[], scope, around⟩
  | call c next => (next (net.answer sockets c)).inScopes net (c.count sockets) scope around
  | note e next =>
    let rest := next.inScopes net sockets scope around
    { rest with notes := (scope, e) :: rest.notes }
  | enter x next => next.inScopes net sockets { context := scope.context.enter x } (scope :: around)
  | leave next =>
    match around with
    | [] => next.inScopes net sockets scope []
    | outer :: around => next.inScopes net sockets { outer with left := true } around
  | elapsed next => (next net.elapsed).inScopes net sockets scope around

theorem inScopes_bind (net : Network) (d : Dialogue α) (f : α → Dialogue β) (sockets : Nat)
    (scope : Scope) (around : List Scope) (c : Log.Context) :
    (d.bind f).inScopes net sockets scope around =
      let first := d.inScopes net sockets scope around
      let second := (f (d.run net sockets c).result).inScopes net (d.run net sockets c).sockets
        first.scope first.around
      { second with notes := first.notes ++ second.notes } := by
  induction d generalizing sockets scope around c with
  | done a => rfl
  | call call next ih => simp only [bind, inScopes, run, ih _ _ _ _ c]
  | note e next ih => simp only [bind, inScopes, run, ih _ _ _ c, List.cons_append]
  | enter x next ih => simp only [bind, inScopes, run, ih _ _ _ (c.enter x)]
  | leave next ih =>
    cases around with
    | nil => simp only [bind, inScopes, run, ih _ _ _ c.leave]
    | cons outer around => simp only [bind, inScopes, run, ih _ _ _ c.leave]
  | elapsed next ih => simp only [bind, inScopes, run, ih _ _ _ _ c]

/-- An event as it is written carries what is bound in a scope. -/
def Carries (written : Log.Event) (noted : Scope × Log.Event) : Prop :=
  ∃ c : Log.Context, written = noted.2.within c ∧ c.Same noted.1.bound

/-- The runs of a well-nested dialogue and its scopes, side by side: the scopes around it stay as
they are, and from the first event to the end what is bound is what the scope says. -/
structure Follows (run : Run α) (scopes : Scopes) (scope : Scope) (around : List Scope) : Prop where
  around : scopes.around = around
  scope : scopes.scope.context = scope.context
  bound : run.context.Same scopes.scope.bound
  notes : List.Forall₂ Carries run.events scopes.notes

theorem WellNested.follows {d : Dialogue α} (h : d.WellNested) (net : Network) (sockets : Nat)
    {c : Log.Context} {scope : Scope} (hBound : c.Same scope.bound) (around : List Scope) :
    Follows (d.run net sockets c) (d.inScopes net sockets scope around) scope around := by
  induction h generalizing sockets c scope around with
  | done a => exact ⟨rfl, rfl, hBound, .nil⟩
  | @call _ call _ _ ih =>
    -- a call adds a step, which is no part of what is bound
    obtain ⟨hAround, hScope, hAfter, hNotes⟩ :=
      ih (net.answer sockets call) (call.count sockets) hBound around
    exact ⟨hAround, hScope, hAfter, hNotes⟩
  | elapsed _ ih => exact ih net.elapsed sockets hBound around
  | note _ ih =>
    obtain ⟨hAround, hScope, hAfter, hNotes⟩ := ih sockets hBound around
    exact ⟨hAround, hScope, hAfter, .cons ⟨c, rfl, hBound⟩ hNotes⟩
  | @block _ _ x body next _ _ ihBody ihNext =>
    -- the body has a scope of its own, over what should be bound around the block
    have hEntered : (c.enter x).Same ({ context := scope.context.enter x } : Scope).bound := by
      refine (hBound.enter x).trans ?_
      unfold Scope.bound
      cases scope.left with
      | false => exact .refl _
      | true => exact Log.Context.same_enter_leave x scope.context
    obtain ⟨hAround, hScope, hAfter, hNotes⟩ := ihBody sockets hEntered (scope :: around)
    -- with its end the scope around the block is one in which a block has been left
    have hLeft : (body.run net sockets (c.enter x)).context.leave.Same
        ({ scope with left := true } : Scope).bound := by
      have hUnbound := hAfter.leave
      have hInner : (body.inScopes net sockets { context := scope.context.enter x }
          (scope :: around)).scope.bound.leave = scope.context.leave := by
        rw [Scope.bound]
        split
        · rw [Log.Context.leave_leave, hScope, Log.Context.leave_enter]
        · rw [hScope, Log.Context.leave_enter]
      rw [hInner] at hUnbound
      exact hUnbound
    obtain ⟨hAround', hScope', hAfter', hNotes'⟩ := ihNext
      (body.run net sockets (c.enter x)).result (body.run net sockets (c.enter x)).sockets hLeft
      around
    have hBlock : (Dialogue.within x body).inScopes net sockets scope around =
        ⟨(body.inScopes net sockets { context := scope.context.enter x } (scope :: around)).notes,
          { scope with left := true }, around⟩ := by
      unfold Dialogue.within
      rw [inScopes, inScopes_bind net body _ _ _ _ (c.enter x)]
      simp only [inScopes, hAround, List.append_nil]
    rw [run_bind, inScopes_bind net _ _ _ _ _ c, hBlock, run_within]
    exact ⟨hAround', hScope', hAfter', List.rel_append hNotes hNotes'⟩

/-- **The scopes of a well-nested dialogue.** After a block around it the names of an exchange are
unbound and everything else is bound as before, on every network and however the block ends; so what
was bound before comes back just when no name of an exchange was. And every event carries what
should be bound in the innermost block that is open, until a block within that one is left; from
then on it carries that without the names of an exchange. -/
theorem wellNested_scopes {d : Dialogue α} (h : d.WellNested) (net : Network) (sockets : Nat)
    (c : Log.Context) :
    (∀ x, let after := ((within x d).run net sockets c).context
      after = c.leave ∧ (after = c ↔ ∀ name ∈ Log.Context.exchangeNames, c.get? name = none)) ∧
    List.Forall₂ Carries (d.run net sockets c).events
      (d.inScopes net sockets { context := c } []).notes := by
  constructor
  · intro x after
    have hAfter : after = c.leave := h.run_within_context net sockets c x
    refine ⟨hAfter, ?_⟩
    rw [hAfter]
    exact Log.Context.leave_eq_self_iff
  · have hBound : c.Same ({ context := c } : Scope).bound := .refl c
    exact (h.follows net sockets hBound []).notes

end Dialogue

/-! ## Exchanges are blocks -/

namespace Exchange

open Dialogue

theorem wellNested_resolve (host : Option Text) (port : Text) : (resolve host port).WellNested := by
  refine .bind (.ask _) fun answer => ?_
  cases answer with
  | ok endpoints => exact .bind (.say _) fun _ => .pure _
  | error fault =>
    dsimp only
    split <;> exact .pure _

theorem wellNested_openSocket (socket : Nat) (a : Address) (timeout : Timeout) :
    (openSocket socket a timeout).WellNested := by
  refine .bind (.ask _) fun answer => ?_
  cases answer with
  | ok _ => exact .ask _
  | error fault => exact .pure _

theorem wellNested_connectAfter (host : Option Text) (port : Text) (timeout : Timeout)
    (attempts : Nat) (endpoints : List Endpoint) :
    (connectAfter host port timeout attempts endpoints).WellNested := by
  induction endpoints generalizing attempts with
  | nil => exact .pure _
  | cons e rest ih =>
    rw [connectAfter]
    refine .bind (.ask _) fun answer => ?_
    cases answer with
    | error fault =>
      dsimp only
      split
      · exact .bind (.say _) fun _ => ih _
      · exact .pure _
    | ok socket =>
      refine .bind (wellNested_openSocket ..) fun opened => ?_
      cases opened with
      | ok _ => exact .bind (.say _) fun _ => .pure _
      | error fault =>
        dsimp only
        split
        · refine .bind (.say _) fun _ => .bind (.ask _) fun closed => ?_
          cases closed with
          | ok _ => exact ih _
          | error fault => exact .pure _
        · exact .pure _

theorem wellNested_converse (socket : Nat) (action : Action) (size : Int) :
    (converse socket action size).WellNested := by
  refine .bind (.bind (.ask _) fun sent => ?_) fun sent => ?_
  · cases sent with
    | ok _ => exact .bind (.say _) fun _ => .pure _
    | error fault =>
      dsimp only
      split <;> exact .pure _
  · cases sent with
    | error fault => exact .pure _
    | ok _ =>
      refine .bind (.ask _) fun received => ?_
      dsimp only
      split
      · exact .pure _
      · split <;> exact .bind (.say _) fun _ => .pure _
      · split <;> exact .pure _

theorem wellNested_readReport (reply : Reply) : (readReport reply).WellNested := by
  unfold readReport
  cases reply.document with
  | error fault => exact .pure _
  | ok document => exact .bind (.sayAll _) fun _ => .bind (.say _) fun _ => .pure _

theorem wellNested_onSocket (socket : Nat) (action : Action) (size : Int) :
    (onSocket socket action size).WellNested := by
  refine .bind (wellNested_converse ..) fun reply => .bind (.ask _) fun closed => ?_
  cases closed with
  | error fault => exact .pure _
  | ok _ =>
    cases reply with
    | error fault => exact .pure _
    | ok bytes => exact wellNested_readReport _

/-- The stages of an exchange bind nothing. -/
theorem wellNested_unbound (host : Option Text) (port : Text) (action : Action) (timeout : Timeout)
    (size : Int) : (unbound host port action timeout size).WellNested := by
  refine .bind (wellNested_resolve ..) fun resolved => ?_
  cases resolved with
  | error fault => exact .pure _
  | ok endpoints =>
    refine .bind (wellNested_connectAfter ..) fun connected => ?_
    split
    · exact .pure _
    · refine .bind (wellNested_onSocket ..) fun result => ?_
      cases result with
      | error fault => exact .pure _
      | ok report =>
        exact .bind (.elapsed fun _ => .done _) fun _ => .bind (.say _) fun _ => .pure _

/-- An exchange is a block around its stages. -/
theorem exchange_eq_within (settings : Settings) (host : Option Text) (port : Port)
    (action : Action) (timeout : Timeout) (size : Option Int) :
    exchange settings host port action timeout size =
      within (.ofTarget host port.text action.name)
        (unbound host port.text action (timeoutFor settings timeout)
          (size.getD settings.bufferSize)) :=
  rfl

/-- An exchange whose lookup fails, within a block of another exchange: the event after it no longer
carries the exchange of the block, and after the block all is bound as before it. -/
theorem wellNested_scopes_of_failure :
    let net : Network :=
      ⟨.error ⟨.lookup, some (-2), "Name or service not known"⟩, fun _ => {}, .null⟩
    let outer : Log.Exchange := ⟨"daemon", "2958", "none"⟩
    let after : Log.Event := .of "client" .info "after" []
    let body : Dialogue Unit := do
      let _ ← exchange {} (some "other") (.number 1) .status none none
      say after
    let c : Log.Context := [("user", .text "operator")]
    (within outer body).WellNested ∧ ((within outer body).run net 0 c).context = c ∧
      ∃ bound : Log.Context,
        ((within outer body).run net 0 c).events = [after.within bound] ∧ bound.Same c := by
  intro net outer after body c
  -- the exchange is a block of its own within the outer one
  have hBody : body.WellNested := by
    refine .bind ?_ fun _ => .say _
    rw [exchange_eq_within]
    exact (wellNested_unbound ..).within _
  refine ⟨hBody.within outer, ?_, ?_⟩
  · exact ((wellNested_scopes hBody net 0 c).1 outer).1
  · have hEvents := (wellNested_scopes (hBody.within outer) net 0 c).2
    have hNotes : ((within outer body).inScopes net 0 { context := c } []).notes =
        [({ context := c.enter outer, left := true }, after)] := rfl
    rw [hNotes, List.forall₂_cons_right_iff] at hEvents
    obtain ⟨written, rest, ⟨bound, rfl, hBound⟩, hRest, hEvents⟩ := hEvents
    obtain rfl := List.forall₂_nil_right_iff.mp hRest
    exact ⟨bound, hEvents, hBound⟩

/-- An event between the end of an inner block and the end of the outer one does not carry the
exchange of the outer block, which was in force when the inner one was entered. -/
theorem not_restored_of_inner_block :
    let net : Network := ⟨.ok [], fun _ => {}, .null⟩
    let outer : Log.Exchange := ⟨"daemon", "2958", "none"⟩
    let inner : Log.Exchange := ⟨"other", "1", "gnss_stop"⟩
    let between : Log.Event := .of "client" .info "between" []
    let before : Log.Context := Log.Context.enter outer []
    (within inner (pure ())).WellNested ∧
      ((within inner (pure ())).run net 0 before).context ≠ before ∧
      ((within outer (within inner (pure ()) >>= fun _ => say between)).run net 0 []).events =
        [between] ∧
      between ≠ between.within before := by
  intro net outer inner between before
  refine ⟨(WellNested.pure ()).within inner, ?_, rfl, ?_⟩
  · intro hSame
    have hLength := congrArg List.length hSame
    revert hLength
    decide
  · intro hSame
    have hLength := congrArg (fun e : Log.Event => e.fields.length) hSame
    revert hLength
    decide

end Exchange

end OscMonitor
