import OscMonitor.Document.Plain
import OscMonitor.Report.Accept

/-!
# Reports

What a reply says about the daemon. A report is read from the object of a reply, and the reading
never fails: a part that is missing or malformed, and a field whose value is missing, null or not
accepted, leave unknown values behind.

* `Part.value?` finds the parts of a reply, and `Part.members` what their fields are read from.
* `Field.wire` is what a reply says about a field, and `Field.decode` what a report makes of it.
* `Report.ofDocument` is the whole reading.
-/

namespace OscMonitor

/-- The parts of a reply that are objects when they are well formed. -/
inductive Part where
  | block (b : Block)
  | parameters
  | temperatureTable
  deriving DecidableEq, Repr

/-- The value of a key, where null is as good as no value. -/
def Object.getNonNull? (o : Object) (key : Text) : Option Value :=
  match o.get? key with
  | some .null => none
  | v => v

/-- The members of a value; a value that is no object has none. -/
def Value.members : Option Value → Object
  | some (.object members) => members
  | _ => []

namespace Part

def name : Part → Text
  | block b => b.name
  | parameters => Topic.discipliningParameters.key
  | temperatureTable => "temperature_table"

def fields : Part → List Field
  | block b => b.fields
  | parameters | temperatureTable => []

/-- What stands in a reply for a part. Only the parts within the disciplining parameters may be
null without being there. -/
def value? (o : Object) : Part → Option Value
  | block .disciplining => o.get? Topic.disciplining.key
  | block .oscillator => o.get? Topic.oscillator.key
  | block .clock => o.get? Topic.clock.key
  | block .gnss => o.get? Topic.gnss.key
  | parameters => o.get? Topic.discipliningParameters.key
  | block .calibration => inParameters (block Block.calibration).name
  | temperatureTable => inParameters temperatureTable.name
where
  -- A part within the disciplining parameters.
  inParameters (key : Text) : Option Value :=
    (Value.members (o.get? Topic.discipliningParameters.key)).getNonNull? key

/-- The members of a part; a part that is not there or malformed has none. -/
def members (o : Object) (p : Part) : Object := Value.members (p.value? o)

/-- The value that stands for a part and is no object. -/
def malformed? (o : Object) (p : Part) : Option Value :=
  match p.value? o with
  | some (.object _) => none
  | v => v

end Part

namespace Topic

/-- The key that older daemons use for the action they echo. -/
def formerActionKey : Text := "Action requested"

/-- The parts of a topic, in the order in which they are decoded. -/
def parts : Topic → List Part
  | disciplining => [.block .disciplining]
  | oscillator => [.block .oscillator]
  | clock => [.block .clock]
  | gnss => [.block .gnss]
  | discipliningParameters => [.parameters, .block .calibration, .temperatureTable]
  | actionRequested => []

/-- Whether a reply has a topic. -/
def isPresent (o : Object) : Topic → Bool
  | actionRequested => o.has actionRequested.key || o.has formerActionKey
  | topic => o.has topic.key

/-- What a reply says about the action that was requested: the key of the topic decides when it is
there, else the older key. -/
def action? (o : Object) : Option Value :=
  match o.get? actionRequested.key with
  | some v => some v
  | none => o.get? formerActionKey

end Topic

namespace Field

/-- What a reply says about a field; null says nothing. -/
def wire (f : Field) (o : Object) : Option Value :=
  match f.lookup ((Part.block f.block).members o) with
  | some .null => none
  | v => v

/-- The value of a field, as far as what the reply says is accepted. -/
def decode (f : Field) (said : Option Value) : Option f.kind.Carrier :=
  match said with
  | none => none
  | some v => (f.kind.accept v).toOption

end Field

/-- What a reply says about the daemon. -/
structure Report where
  -- The topics of the reply, in order.
  topics : List Topic
  -- The values of the fields, as far as they are known.
  value : (f : Field) → Option f.kind.Carrier
  -- Whether the reply has a calibration block.
  calibrated : Bool
  -- The texts of the temperature table by their labels.
  table : List (Text × Text)
  -- The action that the daemon says was requested.
  action : Option Text
  -- The object that was read.
  raw : Object

namespace Report

/-- The temperature table of a reply: every label with the plain text of its value. -/
def tableOf (o : Object) : List (Text × Text) :=
  (Part.temperatureTable.members o).map fun (label, v) => (label, v.plain)

/-- The echoed action of a reply, as text; null is no text. -/
def actionOf (o : Object) : Option Text :=
  match Topic.action? o with
  | none | some .null => none
  | some v => some v.plain

/-- The report of a reply. -/
def ofDocument (o : Object) : Report where
  topics := Topic.all.filter (·.isPresent o)
  value f := f.decode (f.wire o)
  calibrated := ((Part.block .calibration).value? o).isSome
  table := tableOf o
  action := actionOf o
  raw := o

/-- Whether the reply had a topic. -/
def has (r : Report) (topic : Topic) : Bool := r.topics.contains topic

/-- The names of the topics, in the order of their code points. -/
def topicNames (r : Report) : List Text := (r.topics.map Topic.key).mergeSort Text.le

/-- The temperature table in the order of its labels. -/
def sortedTable (r : Report) : List (Text × Text) := r.table.mergeSort fun a b => Text.le a.1 b.1

end Report

end OscMonitor
