import OscMonitor.Document.Display
import OscMonitor.Log.Event
import OscMonitor.Network.Basic
import OscMonitor.Report.Diagnostic

/-!
# Notices

What the stages of an exchange note in the log, and the events that these notices are.
-/

namespace OscMonitor

/-- What a stage of an exchange notes. -/
inductive Notice where
  -- The lookup has so many candidates.
  | resolved (host : Option Text) (port : Text) (candidates : Nat)
  -- No socket can be created for a candidate.
  | socketFailed (host : Option Text) (port : Text) (e : Endpoint) (fault : Fault)
  -- A candidate cannot be connected to.
  | connectFailed (host : Option Text) (port : Text) (e : Endpoint) (fault : Fault)
  -- A candidate accepts, after so many attempts.
  | connected (e : Endpoint) (attempts : Nat)
  | sent (bytes : Nat)
  | received (bytes : Nat)
  -- The reply fills the buffer, so there may be more of it.
  | filled (bytes : Nat) (size : Int)
  | diagnostic (d : Diagnostic)
  | decoded (topics : List Text)
  | completed (topics : List Text) (duration : Value)

namespace Notice

def target (host : Option Text) (port : Text) (others : Object) : Object :=
  ("host", (host.map .text).getD .null) :: ("port", .text port) :: others

/-- A candidate that fails, as fields. -/
def failed (host : Option Text) (port : Text) (e : Endpoint) (fault : Fault) : Object :=
  target host port [("ip_version", .int e.address.version), ("error", .text fault.message)]

def topicValue (topics : List Text) : Value := .list (topics.map .text)

def diagnosticEvent : Diagnostic → Log.Event
  | .malformed part v =>
    .of "decoder" .warning "decoder.section_malformed"
      [("section", .text part.name), ("type", .text v.sortName)]
  | .invalid field v reason =>
    .of "decoder" .debug "decoder.field_invalid"
      [("section", .text field.block.name), ("field", .text field.name),
        ("value", .text v.display), ("error", .text reason.message)]

def event : Notice → Log.Event
  | resolved host port candidates =>
    .of "resolver" .debug "resolver.resolved"
      (target host port [("candidates", .int candidates)])
  | socketFailed host port e fault =>
    .of "connector" .warning "connector.socket_failed" (failed host port e fault)
  | connectFailed host port e fault =>
    .of "connector" .warning "connector.connect_failed" (failed host port e fault)
  | connected e attempts =>
    .of "connector" .debug "connector.connected"
      [("endpoint", .text e.text), ("attempts", .int attempts)]
  | sent bytes => .of "transport" .debug "transport.sent" [("bytes", .int bytes)]
  | received bytes => .of "transport" .debug "transport.received" [("bytes", .int bytes)]
  | filled bytes size =>
    .of "transport" .warning "transport.reply_may_be_truncated"
      [("bytes", .int bytes), ("buffer_size", .int size)]
  | diagnostic d => diagnosticEvent d
  | decoded topics => .of "decoder" .debug "decoder.decoded" [("sections", topicValue topics)]
  | completed topics duration =>
    .of "client" .debug "client.exchange_completed"
      [("sections", topicValue topics), ("duration_ms", duration)]

end Notice

end OscMonitor
