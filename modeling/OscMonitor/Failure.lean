import OscMonitor.Document.Value

/-!
# Failures

How a failed exchange is reported: a message, a code that tells the stage, and details for the
log. Each stage states its own causes and renders them as a `Failure`.
-/

namespace OscMonitor

/-- The stage of an exchange that failed; `general` is for failures of no particular stage. -/
inductive Stage where
  | general
  | resolution
  | connection
  | transport
  | decoding
  deriving DecidableEq, Repr

namespace Stage

def code? : Stage → Option Text
  | general => none
  | resolution => some "RESOLUTION_ERROR"
  | connection => some "CONNECTION_ERROR"
  | transport => some "TRANSPORT_ERROR"
  | decoding => some "DECODE_ERROR"

/-- The message of a failure that states none; a general failure has to state one. -/
def defaultMessage? : Stage → Option Text
  | general => none
  | resolution => some "Address resolution failed"
  | connection => some "Failed to connect to daemon"
  | transport => some "Transport error"
  | decoding => some "Invalid reply from daemon"

end Stage

/-- A failure as it is reported. -/
structure Failure where
  stage : Stage
  -- The message; a caller may withhold it.
  message : Option Text
  code : Option Text
  details : Object
  deriving Repr

namespace Failure

/-- A failure of a stage, with that stage's code. -/
def ofStage (stage : Stage) (message : Text) (details : Object) : Failure :=
  ⟨stage, some message, stage.code?, details⟩

def text (f : Failure) : Text := f.message.getD "None"

/-- The failure for the log: the code and the details only when they say something. -/
def toObject (f : Failure) : Object :=
  let code : Object :=
    match f.code with
    | some (p :: rest) => [("code", .text (p :: rest))]
    | _ => []
  let details : Object := if f.details.isEmpty then [] else [("details", .object f.details)]
  ("message", (f.message.map .text).getD .null) :: (code ++ details)

end Failure

end OscMonitor
