import OscMonitor.Exchange.Basic
import OscMonitor.Proofs.Exchange.Stages
import OscMonitor.Proofs.Log.Line
import OscMonitor.Proofs.Network.Scopes
import OscMonitor.Proofs.Text.Utf8

/-!
# What an exchange says in the log can be written

Whatever the network and the daemon say, every event of an exchange can be written and read back,
and so can the failure that an exchange ends in. The texts in them are anybody's, but the names are
not; and what is counted — candidates, attempts, bytes and code points — is bounded by the network.

* `Network.Countable` — a network whose numbers are not too long to be written.
* `Dialogue.Keeps` — what holds of the result, of the context and of the events of every run.
* `Exchange.exchange_keeps` — the events of an exchange, and its failure.
-/

namespace OscMonitor

/-- A number that is not too long to be written. -/
def IsShort (n : Nat) : Prop := decimalLength n ≤ Numeral.digitLimit

theorem IsShort.mono {m n : Nat} (h : IsShort n) (hLe : m ≤ n) : IsShort m := by
  have hLimit : 0 < Numeral.digitLimit := by decide
  exact (decimalLength_le_iff hLimit).mpr (hLe.trans_lt ((decimalLength_le_iff hLimit).mp h))

theorem IsShort.writable {n room : Nat} (h : IsShort n) : (Value.int n).Writable room := .int h

/-- A network whose numbers are not too long to be written, the time that it takes included. -/
structure Network.Countable (net : Network) : Prop where
  candidates : ∀ endpoints, net.lookup = .ok endpoints → IsShort endpoints.length
  replies : ∀ n, IsShort (net.socket n).reply.length
  elapsed : net.elapsed.Writable 0

/-! ## Events of an exchange -/

/-- The components that log in an exchange. -/
def Exchange.components : List Text := ["resolver", "connector", "transport", "decoder", "client"]

namespace Log.Event

/-- An event by the names of its fields and their values. -/
theorem IsOf.of_names {components : List Text} {component : Text}
    (hComponent : component ∈ components) (level : Level) (name : Text) {fields : Object}
    (names : List Text) (hKeys : fields.keys = names)
    (hNames : (Text.ofString "component" :: names).Nodup ∧
      (∀ n ∈ Text.ofString "component" :: names, n.Joined) ∧ Text.ofString "_record" ∉ names)
    (hValues : ∀ v ∈ fields.map Prod.snd, v.Writable 2) :
    (Event.of component level name fields).IsOf components := by
  have hAllKeys : (Event.of component level name fields).fields.keys =
      Text.ofString "component" :: names := by
    rw [← hKeys]
    rfl
  have hAll : (Event.of component level name fields).fields.Writable 2 :=
    .of_keys _ hAllKeys ⟨hNames.1, hNames.2.1⟩
      (List.forall_mem_cons.mpr ⟨.text component, hValues⟩)
  refine ⟨hAll, Keyed.get?_eq_none_iff.mpr ?_, component, hComponent, rfl⟩
  rw [hAllKeys]
  exact mt List.mem_cons.mp (not_or.mpr ⟨by decide, hNames.2.2⟩)

end Log.Event

/-! ## Runs that keep to it -/

/-- A run that keeps its context and its events fit to be written, and ends as it should. -/
structure Run.Keeps {α : Type} (Q : α → Prop) (r : Run α) : Prop where
  result : Q r.result
  context : r.context.Fit
  events : ∀ e ∈ r.events, e.IsOf Exchange.components

/-- A dialogue all of whose runs on a network keep to it. -/
def Dialogue.Keeps {α : Type} (net : Network) (Q : α → Prop) (d : Dialogue α) : Prop :=
  ∀ sockets context, context.Fit → (d.run net sockets context).Keeps Q

namespace Dialogue

variable {α β : Type} {net : Network} {Q : α → Prop} {R : β → Prop}

theorem Keeps.pure {a : α} (h : Q a) : (Pure.pure a : Dialogue α).Keeps net Q :=
  fun _ _ hContext => ⟨h, hContext, nofun⟩

theorem Keeps.ask (c : Call) : (Dialogue.ask c).Keeps net fun _ => True :=
  fun _ _ hContext => ⟨trivial, hContext, nofun⟩

theorem Keeps.say {e : Log.Event} (h : e.IsOf Exchange.components) :
    (Dialogue.say e).Keeps net fun _ => True :=
  fun _ _ hContext => ⟨trivial, hContext, List.forall_mem_singleton.mpr (h.within hContext)⟩

theorem Keeps.bind {d : Dialogue α} (h : d.Keeps net Q) {f : α → Dialogue β}
    (hNext : ∀ a, Q a → (f a).Keeps net R) : (d >>= f).Keeps net R := by
  intro sockets context hContext
  have hFirst := h sockets context hContext
  have hSecond := hNext _ hFirst.result (d.run net sockets context).sockets _ hFirst.context
  rw [run_bind_eq]
  refine ⟨hSecond.result, hSecond.context, fun e he => ?_⟩
  rcases List.mem_append.mp he with he | he
  · exact hFirst.events e he
  · exact hSecond.events e he

end Dialogue

/-! ## Notices -/

/-- The numbers of a notice can be written. -/
def Notice.Short : Notice → Prop
  | resolved _ _ candidates => IsShort candidates
  | connected _ attempts => IsShort attempts
  | sent bytes | received bytes => IsShort bytes
  | filled bytes size => IsShort bytes ∧ IsShort size.natAbs
  | completed _ duration => duration.Writable 0
  | _ => True

theorem Notice.writable_topicValue (topics : List Text) : (topicValue topics).Writable 2 := by
  refine Value.Writable.list fun v hv => ?_
  obtain ⟨topic, -, rfl⟩ := List.mem_map.mp hv
  exact .text topic

theorem Notice.writable_host (host : Option Text) :
    ((host.map Value.text).getD Value.null).Writable 2 := by
  cases host with
  | none => exact .null
  | some host => exact .text host

theorem Notice.writable_version (a : Address) : (Value.int a.version).Writable 2 := by
  cases a with
  | v4 host port => exact .int (show decimalLength 4 ≤ Numeral.digitLimit by decide)
  | v6 host port flow scope => exact .int (show decimalLength 6 ≤ Numeral.digitLimit by decide)

/-- A notice whose numbers can be written is an event that can. -/
theorem Notice.isOf {n : Notice} (h : n.Short) : n.event.IsOf Exchange.components := by
  -- each notice has its own fields, so each is looked at;
  -- the numbers among them are those of `Short`
  cases n with
  | resolved host port candidates =>
    exact Log.Event.IsOf.of_names (by decide) _ _ ["host", "port", "candidates"] rfl (by decide)
      (by simpa [target, writable_host] using IsShort.writable h)
  | socketFailed host port e fault =>
    exact Log.Event.IsOf.of_names (by decide) _ _ ["host", "port", "ip_version", "error"] rfl
      (by decide) (by simp [failed, target, writable_host, writable_version])
  | connectFailed host port e fault =>
    exact Log.Event.IsOf.of_names (by decide) _ _ ["host", "port", "ip_version", "error"] rfl
      (by decide) (by simp [failed, target, writable_host, writable_version])
  | connected e attempts =>
    exact Log.Event.IsOf.of_names (by decide) _ _ ["endpoint", "attempts"] rfl (by decide)
      (by simpa using IsShort.writable h)
  | sent bytes =>
    exact Log.Event.IsOf.of_names (by decide) _ _ ["bytes"] rfl (by decide)
      (by simpa using IsShort.writable h)
  | received bytes =>
    exact Log.Event.IsOf.of_names (by decide) _ _ ["bytes"] rfl (by decide)
      (by simpa using IsShort.writable h)
  | filled bytes size =>
    exact Log.Event.IsOf.of_names (by decide) _ _ ["bytes", "buffer_size"] rfl (by decide)
      (by simpa using ⟨IsShort.writable h.1, Value.Writable.int h.2⟩)
  | diagnostic d =>
    cases d with
    | malformed part v =>
      exact Log.Event.IsOf.of_names (by decide) _ _ ["section", "type"] rfl (by decide) (by simp)
    | invalid field v reason =>
      exact Log.Event.IsOf.of_names (by decide) _ _ ["section", "field", "value", "error"] rfl
        (by decide) (by simp)
  | decoded topics =>
    exact Log.Event.IsOf.of_names (by decide) _ _ ["sections"] rfl (by decide)
      (by simpa using writable_topicValue topics)
  | completed topics duration =>
    exact Log.Event.IsOf.of_names (by decide) _ _ ["sections", "duration_ms"] rfl (by decide)
      (by simpa using ⟨writable_topicValue topics, Value.Writable.mono h (Nat.zero_le 2)⟩)

/-! ## Failures -/

/-- The numbers of a refusal can be written. -/
def ReplyFault.Short : ReplyFault → Prop
  | notUtf8 _ length => IsShort length
  | notJson _ t => IsShort t.length
  | notObject _ => True

/-- The numbers of a fault can be written. -/
def ExchangeFault.Short : ExchangeFault → Prop
  | unreachable _ _ attempts => IsShort attempts
  | unsent _ bytes => IsShort bytes
  | undecodable fault => fault.Short
  | _ => True

/-- A failure can be written when its details can. -/
theorem Failure.writable_toObject {f : Failure} (h : f.details.Writable 0) :
    f.toObject.Writable 1 := by
  have hMessage : ((f.message.map Value.text).getD Value.null).Writable 1 := by
    cases f.message <;> simp
  have hDetails := h.value
  unfold toObject
  dsimp only
  -- the code and the details may each be left out
  split <;> split
  · exact .of_keys ["message", "code"] rfl (by decide) (by simpa using hMessage)
  · exact .of_keys ["message", "code", "details"] rfl (by decide)
      (by simpa using ⟨hMessage, hDetails⟩)
  · exact .of_keys ["message"] rfl (by decide) (by simpa using hMessage)
  · exact .of_keys ["message", "details"] rfl (by decide) (by simpa using ⟨hMessage, hDetails⟩)

theorem ReplyFault.writable_failure {fault : ReplyFault} (h : fault.Short) :
    fault.failure.toObject.Writable 1 := by
  refine Failure.writable_toObject ?_
  cases fault with
  | notUtf8 fault length =>
    exact .of_keys ["bytes"] rfl (by decide) (by simpa [failure, Failure.ofStage] using h.writable)
  | notJson fault t =>
    unfold failure
    dsimp only
    split
    · next position hPosition =>
      -- a position lies within the text
      have hWithin : position ≤ t.length := by
        cases fault with
        | malformed cause rest =>
          obtain rfl := Option.some.inj hPosition
          exact Nat.sub_le _ _
        | tooManyDigits digits => cases hPosition
        | tooDeep isObject => cases hPosition
      exact .of_keys ["bytes", "position"] rfl (by decide)
        (by simpa [Failure.ofStage] using
          ⟨IsShort.writable h, (IsShort.mono h hWithin).writable⟩)
    · exact .of_keys ["bytes"] rfl (by decide)
        (by simpa [Failure.ofStage] using IsShort.writable h)
  | notObject v => exact .nil

/-- The failure of a fault whose numbers can be written can be written. -/
theorem ExchangeFault.writable_failure {fault : ExchangeFault} (h : fault.Short)
    {failure : Failure} (hFailure : fault.failure? = some failure) :
    failure.toObject.Writable 1 := by
  -- the host is a text or is not given
  have hHost : ∀ host, (hostValue host).Writable 0 := by
    intro host
    cases host <;> simp [hostValue]
  cases fault with
  | unresolved host port fault =>
    obtain rfl := Option.some.inj hFailure
    exact Failure.writable_toObject (.of_keys ["host", "port", "reason"] rfl (by decide)
      (by simp [Failure.ofStage, hHost]))
  | unreachable host port attempts =>
    obtain rfl := Option.some.inj hFailure
    exact Failure.writable_toObject (.of_keys ["host", "port", "attempts"] rfl (by decide)
      (by simpa [Failure.ofStage, hHost] using IsShort.writable h))
  | unsent fault bytes =>
    obtain rfl := Option.some.inj hFailure
    exact Failure.writable_toObject (.of_keys ["error", "bytes"] rfl (by decide)
      (by simpa [Failure.ofStage] using IsShort.writable h))
  | unanswered fault =>
    obtain rfl := Option.some.inj hFailure
    exact Failure.writable_toObject (.of_keys ["error"] rfl (by decide)
      (by simp [Failure.ofStage]))
  | closed =>
    obtain rfl := Option.some.inj hFailure
    exact Failure.writable_toObject .nil
  | undecodable fault =>
    obtain rfl := Option.some.inj hFailure
    exact ReplyFault.writable_failure h
  -- what no stage expects is told as no failure
  | interrupted fault => cases hFailure

/-! ## Stages -/

/-- How a stage ends: with what the next one needs, or in a fault whose numbers can be written. -/
def Exchange.Ends {α : Type} (Q : α → Prop) : Except ExchangeFault α → Prop
  | .ok a => Q a
  | .error fault => fault.Short

/-- The text of bytes has no more code points than there are bytes. -/
theorem Utf8.length_le_of_decode {b : Bytes} {t : Text} (h : decode b = .ok t) :
    t.length ≤ b.length := by
  obtain ⟨cs, rfl, rfl⟩ := decode_eq_ok_iff.mp h
  rw [List.length_map]
  induction cs with
  | nil => exact Nat.zero_le _
  | cons c cs ih =>
    -- every character takes a byte at least
    have hHead : 0 < (encodeChar c).length := by
      unfold encodeChar
      dsimp only
      split
      · exact Nat.succ_pos _
      split
      · exact Nat.succ_pos _
      split <;> exact Nat.succ_pos _
    have hTail := ih (decode_encode cs)
    rw [encode, List.flatMap_cons, List.length_append, List.length_cons]
    rw [encode] at hTail
    omega

theorem Reply.length_trimBytes_le (b : Bytes) : (trimBytes b).length ≤ b.length := by
  rw [trimBytes, List.length_reverse]
  exact (List.dropWhile_sublist _).length_le.trans (Nat.le_of_eq List.length_reverse)

/-- The numbers in a refusal of bytes are no greater than the bytes are many. -/
theorem Reply.short_of_document {b : Bytes} (hBytes : IsShort b.length) {fault : ReplyFault}
    (h : document (.bytes b) = .error fault) : fault.Short := by
  have hTrimmed := hBytes.mono (length_trimBytes_le b)
  unfold document content at h
  dsimp only at h
  -- a refusal counts the bytes that were trimmed, or the code points of their text
  cases hDecode : Utf8.decode (trimBytes b) with
  | error fault =>
    rw [hDecode] at h
    obtain rfl := Except.error.inj h
    exact hTrimmed
  | ok t =>
    rw [hDecode] at h
    change objectOf t = .error fault at h
    unfold objectOf at h
    split at h
    · cases h
    · obtain rfl := Except.error.inj h
      exact trivial
    · obtain rfl := Except.error.inj h
      exact hTrimmed.mono (Utf8.length_le_of_decode hDecode)

namespace Exchange

open Dialogue

variable {net : Network}

theorem resolve_keeps (hNet : net.Countable) (host : Option Text) (port : Text) :
    (resolve host port).Keeps net (Ends fun endpoints => IsShort endpoints.length) := by
  intro sockets context hContext
  rw [resolve_run]
  cases hLookup : net.lookup with
  | ok endpoints =>
    have hShort := hNet.candidates endpoints hLookup
    have hEvent := (Notice.isOf (n := .resolved host port _) hShort).within hContext
    exact ⟨hShort, hContext, List.forall_mem_singleton.mpr hEvent⟩
  | error fault =>
    refine ⟨?_, hContext, nofun⟩
    dsimp only
    split <;> exact trivial

theorem openSocket_keeps (socket : Nat) (a : Address) (timeout : Timeout) :
    (openSocket socket a timeout).Keeps net fun _ => True := by
  intro sockets context hContext
  rw [openSocket_run]
  exact ⟨trivial, hContext, nofun⟩

/-- There are no more attempts than candidates. -/
theorem connectAfter_keeps (host : Option Text) (port : Text) (timeout : Timeout) (attempts : Nat)
    (endpoints : List Endpoint) (h : IsShort (attempts + endpoints.length)) :
    (connectAfter host port timeout attempts endpoints).Keeps net
      fun result => Ends (fun _ => True) result.1 := by
  -- induction on the candidates: attempts made and candidates left stay the same number
  induction endpoints generalizing attempts with
  | nil => exact .pure h
  | cons e rest ih =>
    have hNext : IsShort (attempts + 1 + rest.length) := by
      refine h.mono ?_
      rw [List.length_cons]
      omega
    have hAttempts : IsShort (attempts + 1) := hNext.mono (Nat.le_add_right _ _)
    rw [connectAfter]
    -- the calls and notices of one candidate, and then the rest or the end
    refine .bind (.ask _) fun answer _ => ?_
    cases answer with
    | error fault =>
      dsimp only
      split
      · exact .bind (.say (Notice.isOf (n := .socketFailed ..) trivial))
          fun _ _ => ih _ hNext
      · exact .pure trivial
    | ok socket =>
      refine .bind (openSocket_keeps socket e.address timeout) fun opened _ => ?_
      cases opened with
      | ok _ =>
        exact .bind (.say (Notice.isOf (n := .connected ..) hAttempts))
          fun _ _ => .pure trivial
      | error fault =>
        dsimp only
        split
        · refine .bind (.say (Notice.isOf (n := .connectFailed ..) trivial)) fun _ _ =>
            .bind (.ask _) fun closed _ => ?_
          cases closed with
          | ok _ => exact ih _ hNext
          | error fault => exact .pure trivial
        · exact .pure trivial

theorem short_request (action : Action) : IsShort action.toBytes.length := by
  unfold IsShort
  cases action <;> decide

theorem sendRequest_keeps (socket : Nat) (action : Action) :
    (sendRequest socket action.toBytes).Keeps net (Ends fun _ => True) := by
  intro sockets context hContext
  rw [sendRequest_run]
  have hShort := short_request action
  cases (net.socket socket).send with
  | none =>
    have hEvent := (Notice.isOf (n := .sent _) hShort).within hContext
    exact ⟨trivial, hContext, List.forall_mem_singleton.mpr hEvent⟩
  | some fault =>
    refine ⟨?_, hContext, nofun⟩
    dsimp only
    split
    · exact hShort
    · exact trivial

/-- A reply that fills the buffer is no smaller than the buffer, so its size can be written too. -/
theorem receiveReply_keeps (hNet : net.Countable) (socket : Nat) (size : Int) :
    (receiveReply socket size).Keeps net (Ends fun bytes => IsShort bytes.length) := by
  intro sockets context hContext
  rw [receiveReply_run]
  have hShort : IsShort ((net.socket socket).reply.take size.toNat).length :=
    (hNet.replies socket).mono (List.length_take_le' ..)
  cases (net.socket socket).receive with
  | none =>
    dsimp only
    split
    · exact ⟨trivial, hContext, nofun⟩
    · next hNonempty =>
      refine ⟨hShort, hContext, List.forall_mem_singleton.mpr ?_⟩
      split
      · next hFilled =>
        -- something was received, so the buffer has a size
        have hPositive : 0 < size.toNat := by
          refine Nat.pos_of_ne_zero fun hZero => hNonempty ?_
          rw [hZero, List.take_zero]
        have hSize : IsShort size.natAbs := hShort.mono (by omega)
        exact (Notice.isOf (n := .filled ..) ⟨hShort, hSize⟩).within hContext
      · exact (Notice.isOf (n := .received _) hShort).within hContext
  | some fault =>
    refine ⟨?_, hContext, nofun⟩
    dsimp only
    split <;> exact trivial

theorem converse_keeps (hNet : net.Countable) (socket : Nat) (action : Action) (size : Int) :
    (converse socket action size).Keeps net (Ends fun bytes => IsShort bytes.length) := by
  refine .bind (sendRequest_keeps socket action) fun sent hSent => ?_
  cases sent with
  | error fault => exact .pure hSent
  | ok u =>
    cases u
    exact receiveReply_keeps hNet socket size

theorem readReport_keeps {bytes : Bytes} (hBytes : IsShort bytes.length) :
    (readReport (.bytes bytes)).Keeps net
      (Ends fun report => ∃ b, Report.ofReply (.bytes b) = .ok report) := by
  intro sockets context hContext
  rw [readReport_run]
  cases hDocument : (Reply.bytes bytes).document with
  | error fault => exact ⟨Reply.short_of_document hBytes hDocument, hContext, nofun⟩
  | ok o =>
    have hReport := Report.ofReply_eq_ok_iff.mpr ⟨o, hDocument, rfl⟩
    refine ⟨⟨bytes, hReport⟩, hContext, fun e he => ?_⟩
    rcases List.mem_append.mp he with he | he
    · obtain ⟨d, -, rfl⟩ := List.mem_map.mp he
      exact (Notice.isOf (n := .diagnostic d) trivial).within hContext
    · obtain rfl := List.mem_singleton.mp he
      exact (Notice.isOf (n := .decoded _) trivial).within hContext

theorem onSocket_keeps (hNet : net.Countable) (socket : Nat) (action : Action) (size : Int) :
    (onSocket socket action size).Keeps net
      (Ends fun report => ∃ b, Report.ofReply (.bytes b) = .ok report) := by
  refine .bind (converse_keeps hNet socket action size) fun reply hReply =>
    .bind (.ask _) fun closed _ => ?_
  cases closed with
  | error fault => exact .pure trivial
  | ok _ =>
    cases reply with
    | error fault => exact .pure hReply
    | ok bytes => exact readReport_keeps hReply

theorem unbound_keeps (hNet : net.Countable) (host : Option Text) (port : Text) (action : Action)
    (timeout : Timeout) (size : Int) :
    (unbound host port action timeout size).Keeps net
      (Ends fun report => ∃ b, Report.ofReply (.bytes b) = .ok report) := by
  refine .bind (resolve_keeps hNet host port) fun resolved hResolved => ?_
  cases resolved with
  | error fault => exact .pure hResolved
  | ok endpoints =>
    -- no attempt has been made before the first candidate
    have hCandidates : IsShort (0 + endpoints.length) := by
      rw [Nat.zero_add]
      exact hResolved
    refine .bind (connectAfter_keeps host port timeout 0 endpoints hCandidates)
      fun connected hConnected => ?_
    split
    · next fault hFault =>
      rw [hFault] at hConnected
      exact .pure hConnected
    · refine .bind (onSocket_keeps hNet _ action size) fun result hReport => ?_
      cases result with
      | error fault => exact .pure hReport
      | ok report =>
        intro sockets context hContext
        -- the notice of the end is the last event
        have hEvent := (Notice.isOf (n := .completed report.topicNames net.elapsed)
          hNet.elapsed).within hContext
        exact ⟨hReport, hContext, List.forall_mem_singleton.mpr hEvent⟩

/-- **What an exchange says in the log can be written**: every event of it, on every network whose
numbers can be written; and it ends in the report of some bytes, or in a fault whose failure can be
written. -/
theorem exchange_keeps (hNet : net.Countable) (settings : Settings) (host : Option Text)
    (port : Port) (action : Action) (timeout : Timeout) (size : Option Int) :
    (exchange settings host port action timeout size).Keeps net
      (Ends fun report => ∃ b, Report.ofReply (.bytes b) = .ok report) := by
  intro sockets context hContext
  have hBody := unbound_keeps hNet host port.text action (timeoutFor settings timeout)
    (size.getD settings.bufferSize) sockets _
    (hContext.enter (.ofTarget host port.text action.name))
  rw [exchange_eq_within, run_within]
  exact ⟨hBody.result, hBody.context.leave, hBody.events⟩

end Exchange

end OscMonitor
