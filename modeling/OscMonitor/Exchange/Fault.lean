import OscMonitor.Network.Basic
import OscMonitor.Reply.Document

/-!
# Faults of an exchange

Why an exchange ends without a report, and how that is reported. Most faults belong to a stage of
the exchange; a fault of a call that no stage expects is passed on as it is.
-/

namespace OscMonitor

/-- Why an exchange ends without a report. -/
inductive ExchangeFault where
  -- The lookup of the daemon fails.
  | unresolved (host : Option Text) (port : Text) (fault : Fault)
  -- None of the candidates that were tried accepts a connection.
  | unreachable (host : Option Text) (port : Text) (attempts : Nat)
  -- The request, of so many bytes, cannot be sent.
  | unsent (fault : Fault) (bytes : Nat)
  -- The reply cannot be received.
  | unanswered (fault : Fault)
  -- The daemon closes the connection without a reply.
  | closed
  -- The reply is no document.
  | undecodable (fault : ReplyFault)
  -- A call ends in a fault that no stage expects.
  | interrupted (fault : Fault)
  deriving Repr

namespace ExchangeFault

/-- A host that may be missing, in a message. -/
def hostText (host : Option Text) : Text := host.getD "None"

/-- A host that may be missing, in details. -/
def hostValue (host : Option Text) : Value := (host.map .text).getD .null

/-- How a fault is reported; one that no stage expects is not. -/
def failure? : ExchangeFault → Option Failure
  | unresolved host port fault =>
    some <| .ofStage .resolution
      ("Unable to get an Internet address from '" ++ hostText host ++ ":" ++ port ++ "': "
        ++ fault.reason)
      [("host", hostValue host), ("port", .text port), ("reason", .text fault.reason)]
  | unreachable host port attempts =>
    some <| .ofStage .connection ("Could not connect to " ++ hostText host ++ ":" ++ port)
      [("host", hostValue host), ("port", .text port), ("attempts", .int attempts)]
  | unsent fault bytes =>
    some <| .ofStage .transport ("Error sending request: " ++ fault.message)
      [("error", .text fault.message), ("bytes", .int bytes)]
  | unanswered fault =>
    some <| .ofStage .transport ("Error receiving response: " ++ fault.message)
      [("error", .text fault.message)]
  | closed => some (.ofStage .transport "Daemon closed the connection without replying" [])
  | undecodable fault => some fault.failure
  | interrupted _ => none

end ExchangeFault

end OscMonitor
