import OscMonitor.Report.Basic

/-!
# Phases of disciplining

The phases that the disciplining algorithm goes through, as its status names them. A status that
names none of the three known phases, and a missing one, count as another phase.
-/

namespace OscMonitor

/-- A phase of the disciplining algorithm. -/
inductive Phase where
  | tracking
  | lockLowResolution
  | lockHighResolution
  | other
  deriving DecidableEq, Repr

namespace Phase

def name : Phase → Text
  | tracking => "TRACKING"
  | lockLowResolution => "LOCK_LOW_RESOLUTION"
  | lockHighResolution => "LOCK_HIGH_RESOLUTION"
  | other => "OTHER"

def ofStatus (status : Option Text) : Phase :=
  if status = some tracking.name then tracking
  else if status = some lockLowResolution.name then lockLowResolution
  else if status = some lockHighResolution.name then lockHighResolution
  else other

/-- How a listing names a phase whose progress it shows. -/
def label? : Phase → Option Text
  | tracking => some "tracking"
  | lockLowResolution => some "lock low resolution"
  | lockHighResolution => some "lock high resolution"
  | other => none

end Phase

def Report.phase (r : Report) : Phase := .ofStatus (r.value .status)

end OscMonitor
