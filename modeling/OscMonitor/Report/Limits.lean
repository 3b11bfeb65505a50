import OscMonitor.Document.Limits
import OscMonitor.Report.Listing
import OscMonitor.Reply.Document

/-!
# Reading and listing within limits

A report holds texts that are written from values of the reply, the log shows the values that are
refused, and a listing shows the values of fields. Each of these may fail, since writing a value
may. Here are the reading and the listing of a report with these faults.

* `Report.decode?` — the report of a reply, or why there is none.
* `Report.lines?` — the lines of a report, if all of them can be written.
-/

namespace OscMonitor

/-- The value of a kind that a value of a reply stands for; an integer that becomes text is
written. -/
def Kind.accept? : (k : Kind) → Value → Except WriteFault (Except Rejection k.Carrier)
  | .text, .int n => .ok <$> Text.ofInt? n
  | k, v => .ok (k.accept v)

/-- The value of a field. What is not accepted is shown in the log. -/
def Field.decode? (depth : Nat) (f : Field) (said : Option Value) :
    Except WriteFault (Option f.kind.Carrier) :=
  match said with
  | none => .ok none
  | some v => do
    match ← f.kind.accept? v with
    | .ok x => return some x
    | .error _ =>
      discard (v.display? depth)
      return none

/-- Why there is no report of a reply. -/
inductive DecodeFault where
  -- The reply is refused.
  | refused (fault : ReplyFault)
  -- Something in it cannot be written.
  | unwritable (fault : WriteFault)
  deriving Repr

namespace Report

/-- The temperature table of a reply, if its texts can be written. -/
def tableOf? (depth : Nat) (o : Object) : Except WriteFault (List (Text × Text)) :=
  (Part.temperatureTable.members o).mapM fun (label, v) => do
    return (label, ← v.plain? depth)

/-- The echoed action of a reply, if its text can be written. -/
def actionOf? (depth : Nat) (o : Object) : Except WriteFault (Option Text) :=
  match Topic.action? o with
  | none | some .null => .ok none
  | some v => some <$> v.plain? depth

/-- The report of an object. Its fields are decoded topic by topic and part by part. -/
def ofDocument? (depth : Nat) (o : Object) : Except WriteFault Report := do
  for part in Topic.all.flatMap Topic.parts do
    for f in part.fields do
      discard (f.decode? depth (f.wire o))
  let table ← tableOf? depth o
  let action ← actionOf? depth o
  return {
    topics := Topic.all.filter (·.isPresent o)
    value f := ((f.decode? depth (f.wire o)).toOption).join
    calibrated := ((Part.block .calibration).value? o).isSome
    table
    action
    raw := o }

/-- The report of a reply, or why there is none. -/
def decode? (depth : Nat) (reply : Reply) : Except DecodeFault Report :=
  match reply.document with
  | .error fault => .error (.refused fault)
  | .ok o => (ofDocument? depth o).mapError .unwritable

end Report

/-! ## Listing -/

/-- The text of a value in a listing, if it can be written. -/
def Value.listed? (depth : Nat) (precision : Option Nat) (v : Value) : Except WriteFault Text := do
  v.check depth
  return v.listed precision

namespace Listing

variable (depth : Nat) (r : Report)

def fieldText? (f : Field) : Except WriteFault Text := do
  let text ← (fieldValue r f).listed? depth (style f).precision
  return match (style f).unit, r.value f with
    | some unit, some _ => text ++ " " ++ unit
    | _, _ => text

def fieldLine? (tabs : Nat) (f : Field) : Except WriteFault Text := do
  return item tabs (style f).label (← fieldText? depth r f)

/-- The line that shows how far a known phase has converged, if there is one. -/
def progressLines? : Except WriteFault (List Text) :=
  match r.phase.label? with
  | none => .ok []
  | some label => do
    let progress ← (fieldValue r .convergenceProgress).listed? depth (some 2)
    let count ← fieldText? depth r .phaseCount
    let threshold ← fieldText? depth r .phaseThreshold
    return [heading (label ++ " convergence progress: ") ++ progress ++ " % (" ++ count ++ "/" ++
      threshold ++ ")"]

def calibrationLines? : Except WriteFault (List Text) := do
  if r.calibrated then
    return heading "Calibration parameters" ::
      (← Block.calibration.fields.mapM (fieldLine? depth r 2))
  else return []

def topicLines? : Topic → Except WriteFault (List Text)
  | .disciplining => do
    let lines ← discipliningFields.mapM (fieldLine? depth r 1)
    return title .disciplining :: (lines ++ (← progressLines? depth r))
  | .oscillator => do
    return title .oscillator :: (← Block.oscillator.fields.mapM (fieldLine? depth r 1))
  | .clock => do
    return title .clock :: (← Block.clock.fields.mapM (fieldLine? depth r 1))
  | .gnss => do
    return title .gnss :: (← Block.gnss.fields.mapM (fieldLine? depth r 1))
  | .discipliningParameters => do
    return title .discipliningParameters :: ((← calibrationLines? depth r) ++ tableLines r)
  | .actionRequested => .ok [title .actionRequested ++ r.action.getD "unknown"]

end Listing

/-- The lines of a report, if all of them can be written. -/
def Report.lines? (depth : Nat) (r : Report) : Except WriteFault (List Text) :=
  List.flatten <$> r.topics.mapM (Listing.topicLines? depth r)

end OscMonitor
