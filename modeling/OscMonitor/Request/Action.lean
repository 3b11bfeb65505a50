import OscMonitor.Text.Blank
import OscMonitor.Text.UpperCase

/-!
# Actions

What a client can ask the daemon to do: an action with a name for operators and a code on the
wire. Asking for none of the actions is asking for the status alone.

* `Action.ofCode?` and `Action.ofName?` read codes and names back.
-/

namespace OscMonitor

/-- What a request asks for. -/
inductive Action where
  | status
  | calibration
  | gnssStart
  | gnssStop
  | gnssSoft
  | gnssHard
  | gnssCold
  | readEeprom
  | saveEeprom
  | fakeHoldoverStart
  | fakeHoldoverStop
  | coarseIncrement
  | coarseDecrement
  deriving DecidableEq, Repr

namespace Action

/-- All actions, in the order of their codes. -/
def all : List Action :=
  [status, calibration, gnssStart, gnssStop, gnssSoft, gnssHard, gnssCold, readEeprom, saveEeprom,
    fakeHoldoverStart, fakeHoldoverStop, coarseIncrement, coarseDecrement]

def code : Action → Nat
  | status => 0
  | calibration => 1
  | gnssStart => 2
  | gnssStop => 3
  | gnssSoft => 4
  | gnssHard => 5
  | gnssCold => 6
  | readEeprom => 7
  | saveEeprom => 8
  | fakeHoldoverStart => 9
  | fakeHoldoverStop => 10
  | coarseIncrement => 11
  | coarseDecrement => 12

def name : Action → Text
  | status => "none"
  | calibration => "calibration"
  | gnssStart => "gnss_start"
  | gnssStop => "gnss_stop"
  | gnssSoft => "gnss_soft"
  | gnssHard => "gnss_hard"
  | gnssCold => "gnss_cold"
  | readEeprom => "read_eeprom"
  | saveEeprom => "save_eeprom"
  | fakeHoldoverStart => "fake_holdover_start"
  | fakeHoldoverStop => "fake_holdover_stop"
  | coarseIncrement => "mro_coarse_inc"
  | coarseDecrement => "mro_coarse_dec"

/-- The names that can be asked for by name: all but the status alone. -/
def names : List Text := (all.filter (· ≠ status)).map name

def ofCode? (n : Int) : Option Action := all.find? fun a => (a.code : Int) = n

/-- The action of a name, in any case and with blanks around it. -/
def ofName? (t : Text) : Option Action :=
  all.find? fun a => a.name.upper = (Text.trim Text.isBlank t).upper

/-- Every action is among all actions. -/
theorem mem_all (a : Action) : a ∈ all := by cases a <;> decide

/-- Only the code of an action stands for it. -/
theorem code_eq_of_ofCode? {n : Int} {a : Action} (h : ofCode? n = some a) :
    (a.code : Int) = n := by
  simpa using List.find?_some h

end Action

end OscMonitor
