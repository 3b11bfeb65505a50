import OscMonitor.Document.Display
import OscMonitor.Number.Layout
import OscMonitor.Report.Phase

/-!
# The listing of a report

A report as lines for an operator: a heading for each topic of the reply, and under it one item a
line, indented with tabs. Unknown values are shown as such.

* `Value.listed` is the text of one value, `item` a line.
* `topicLines` are the lines of one topic, `Report.lines` those of the whole report.
-/

namespace OscMonitor

/-- The text of a value in a listing; a precision gives doubles a fixed number of places. -/
def Value.listed (precision : Option Nat) : Value → Text
  | .null => "unknown"
  | .float x =>
    match precision with
    | some places => x.fixed places
    | none => x.text
  | .text t => t
  | v => v.display

namespace Listing

/-- How a field is listed. -/
structure Style where
  label : Text
  precision : Option Nat
  unit : Option Text

/-- How the fields are listed: under their keys, the status under a longer label, and two of the
doubles with a fixed number of places, one of them in metres. -/
def style : Field → Style
  | .status => ⟨"Current status", none, none⟩
  | .temperature => ⟨Field.temperature.key, some 6, none⟩
  | .surveyInPositionError => ⟨Field.surveyInPositionError.key, some 2, some "m"⟩
  | f => ⟨f.key, none, none⟩

/-- A line of a listing, `depth` tabs in. -/
def item (depth : Nat) (label text : Text) : Text :=
  List.replicate depth (CodePoint.scalar '\t') ++ "- " ++ label ++ ": " ++ text

/-- A heading within a topic. -/
def heading (title : Text) : Text := "\t- " ++ title

/-- The value of a field, null when it is unknown. -/
def fieldValue (r : Report) (f : Field) : Value :=
  match r.value f with
  | some x => f.kind.toValue x
  | none => .null

/-- The text of a field: its unit follows when the value is known. -/
def fieldText (r : Report) (f : Field) : Text :=
  let text := (fieldValue r f).listed (style f).precision
  match (style f).unit, r.value f with
  | some unit, some _ => text ++ " " ++ unit
  | _, _ => text

def fieldLine (r : Report) (depth : Nat) (f : Field) : Text :=
  item depth (style f).label (fieldText r f)

/-- The line that shows how far a known phase has converged. -/
def progressLine? (r : Report) : Option Text :=
  r.phase.label?.map fun label =>
    heading (label ++ " convergence progress: ")
      ++ (fieldValue r .convergenceProgress).listed (some 2) ++ " % ("
      ++ fieldText r .phaseCount ++ "/" ++ fieldText r .phaseThreshold ++ ")"

/-- The fields of the disciplining topic that have a line of their own, in order. -/
def discipliningFields : List Field := [.status, .trackingOnly, .readyForHoldover]

/-- The heading of a topic. -/
def title : Topic → Text
  | .disciplining => "Disciplining detected"
  | .oscillator => "Oscillator detected"
  | .clock => "Clock detected"
  | .gnss => "GNSS detected"
  | .discipliningParameters => "Disciplining parameters detected"
  | .actionRequested => "Action requested: "

def calibrationLines (r : Report) : List Text :=
  if r.calibrated then
    heading "Calibration parameters" :: Block.calibration.fields.map (fieldLine r 2)
  else []

/-- The lines of the temperature table, in the order of its labels. -/
def tableLines (r : Report) : List Text :=
  if r.table.isEmpty then []
  else heading "Temperature table" :: r.sortedTable.map fun (label, text) => item 2 label text

def topicLines (r : Report) : Topic → List Text
  | .disciplining =>
    title .disciplining ::
      (discipliningFields.map (fieldLine r 1) ++ (progressLine? r).toList)
  | .oscillator => title .oscillator :: Block.oscillator.fields.map (fieldLine r 1)
  | .clock => title .clock :: Block.clock.fields.map (fieldLine r 1)
  | .gnss => title .gnss :: Block.gnss.fields.map (fieldLine r 1)
  | .discipliningParameters =>
    title .discipliningParameters :: (calibrationLines r ++ tableLines r)
  | .actionRequested => [title .actionRequested ++ r.action.getD "unknown"]

end Listing

/-- The lines of a report. -/
def Report.lines (r : Report) : List Text := r.topics.flatMap (Listing.topicLines r)

end OscMonitor
