import OscMonitor.Document.Value

/-!
# Fields of a report

The schema of the daemon's status: its topics, the blocks of fields they hold, and for each field
the key it has in a reply, its name in diagnostics, and the kind of value it takes. Everything
else — decoding, diagnostics, listing — reads this schema.
-/

namespace OscMonitor

/-- The top-level topics of a status reply, in the order in which they are decoded and listed. -/
inductive Topic where
  | disciplining
  | oscillator
  | clock
  | gnss
  | discipliningParameters
  | actionRequested
  deriving DecidableEq, Repr

namespace Topic

/-- All topics, in order. -/
def all : List Topic :=
  [disciplining, oscillator, clock, gnss, discipliningParameters, actionRequested]

/-- The key of a topic in a reply, which is also its name in diagnostics. -/
def key : Topic → Text
  | disciplining => "disciplining"
  | oscillator => "oscillator"
  | clock => "clock"
  | gnss => "gnss"
  | discipliningParameters => "disciplining_parameters"
  | actionRequested => "action_requested"

end Topic

/-- The groups of fields that are read from one object of a reply. -/
inductive Block where
  | disciplining
  | oscillator
  | clock
  | gnss
  | calibration
  deriving DecidableEq, Repr

def Block.name : Block → Text
  | .disciplining => Topic.disciplining.key
  | .oscillator => Topic.oscillator.key
  | .clock => Topic.clock.key
  | .gnss => Topic.gnss.key
  | .calibration => "calibration_parameters"

/-- The kinds of values that fields take. -/
inductive Kind where
  | integer
  | natural
  | real
  | flag
  | text
  deriving DecidableEq, Repr

/-- The values of a kind. -/
abbrev Kind.Carrier : Kind → Type
  | .integer => Int
  | .natural => Nat
  | .real => Double
  | .flag => Bool
  | .text => Text

/-- The fields of a report. -/
inductive Field where
  | status
  | trackingOnly
  | phaseCount
  | phaseThreshold
  | convergenceProgress
  | readyForHoldover
  | model
  | fineCtrl
  | coarseCtrl
  | lock
  | temperature
  | clockClass
  | offset
  | fix
  | fixOk
  | antennaStatus
  | antennaPower
  | surveyInPositionError
  | lsChange
  | leapSeconds
  | nodesLength
  | loadNodes
  | driftCoeffs
  | coarseEquilibrium
  | calibrationDate
  | calibrationValid
  | nodesLengthFactory
  | loadNodesFactory
  | driftCoeffsFactory
  | coarseEquilibriumFactory
  | estimatedEquilibrium
  deriving DecidableEq, Repr

def Block.fields : Block → List Field
  | .disciplining =>
    [.status, .trackingOnly, .phaseCount, .phaseThreshold, .convergenceProgress, .readyForHoldover]
  | .oscillator => [.model, .fineCtrl, .coarseCtrl, .lock, .temperature]
  | .clock => [.clockClass, .offset]
  | .gnss =>
    [.fix, .fixOk, .antennaStatus, .antennaPower, .surveyInPositionError, .lsChange, .leapSeconds]
  | .calibration =>
    [.nodesLength, .loadNodes, .driftCoeffs, .coarseEquilibrium, .calibrationDate,
      .calibrationValid, .nodesLengthFactory, .loadNodesFactory, .driftCoeffsFactory,
      .coarseEquilibriumFactory, .estimatedEquilibrium]

namespace Field

def block : Field → Block
  | status | trackingOnly | phaseCount | phaseThreshold | convergenceProgress
  | readyForHoldover => .disciplining
  | model | fineCtrl | coarseCtrl | lock | temperature => .oscillator
  | clockClass | offset => .clock
  | fix | fixOk | antennaStatus | antennaPower | surveyInPositionError | lsChange
  | leapSeconds => .gnss
  | nodesLength | loadNodes | driftCoeffs | coarseEquilibrium | calibrationDate | calibrationValid
  | nodesLengthFactory | loadNodesFactory | driftCoeffsFactory | coarseEquilibriumFactory
  | estimatedEquilibrium => .calibration

/-- The kind of value that a field takes. -/
def kind : Field → Kind
  | status | model | clockClass | loadNodes | driftCoeffs | loadNodesFactory
  | driftCoeffsFactory => .text
  | trackingOnly | readyForHoldover | lock | fixOk | calibrationValid => .flag
  | fineCtrl | coarseCtrl => .natural
  | convergenceProgress | temperature | surveyInPositionError => .real
  | phaseCount | phaseThreshold | offset | fix | antennaStatus | antennaPower | lsChange
  | leapSeconds | nodesLength | coarseEquilibrium | calibrationDate | nodesLengthFactory
  | coarseEquilibriumFactory | estimatedEquilibrium => .integer

/-- The name of a field in diagnostics. It is also accepted as a key. -/
def name : Field → Text
  | status => "status"
  | trackingOnly => "tracking_only"
  | phaseCount => "current_phase_convergence_count"
  | phaseThreshold => "valid_phase_convergence_threshold"
  | convergenceProgress => "convergence_progress"
  | readyForHoldover => "ready_for_holdover"
  | model => "model"
  | fineCtrl => "fine_ctrl"
  | coarseCtrl => "coarse_ctrl"
  | lock => "lock"
  | temperature => "temperature"
  | clockClass => "clock_class"
  | offset => "offset"
  | fix => "fix"
  | fixOk => "fix_ok"
  | antennaStatus => "antenna_status"
  | antennaPower => "antenna_power"
  | surveyInPositionError => "survey_in_position_error"
  | lsChange => "ls_change"
  | leapSeconds => "leap_seconds"
  | nodesLength => "ctrl_nodes_length"
  | loadNodes => "ctrl_load_nodes"
  | driftCoeffs => "ctrl_drift_coeffs"
  | coarseEquilibrium => "coarse_equilibrium"
  | calibrationDate => "calibration_date"
  | calibrationValid => "calibration_valid"
  | nodesLengthFactory => "ctrl_nodes_length_factory"
  | loadNodesFactory => "ctrl_load_nodes_factory"
  | driftCoeffsFactory => "ctrl_drift_coeffs_factory"
  | coarseEquilibriumFactory => "coarse_equilibrium_factory"
  | estimatedEquilibrium => "estimated_equilibrium_es"

def key : Field → Text
  | clockClass => "class"
  | fixOk => "fixOk"
  | lsChange => "lsChange"
  | estimatedEquilibrium => "estimated_equilibrium_ES"
  | f => f.name

/-- A field is listed in its block, and in no other. -/
theorem mem_fields_iff (f : Field) (b : Block) : f ∈ b.fields ↔ f.block = b := by
  cases f <;> cases b <;> decide

/-- What an object says about a field: its key decides when it is there, else its name. -/
def lookup (f : Field) (o : Object) : Option Value :=
  match o.get? f.key with
  | some v => some v
  | none => o.get? f.name

end Field

end OscMonitor
