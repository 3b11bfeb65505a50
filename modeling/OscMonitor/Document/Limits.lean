import OscMonitor.Document.Display
import OscMonitor.Document.Plain
import OscMonitor.Number.Numeral

/-!
# The limits of writing

Writing a value can fail: an integer has more digits than are written, or values are nested more
deeply than there is room for. The writers of values are given here with these faults. A writer
takes one value after the other, as they stand, so it ends in the fault of the first one that has
one. They differ in what takes a level: to some only lists and objects do, to others every value.

* `Value.checkLevels` — the first fault of a value, where so many levels have room.
* `Value.check`, `Value.checkShown` — where only containers take a level, and where all values do.
* `Value.print?`, `Value.display?`, `Value.plain?` — the writers with their faults.
-/

namespace OscMonitor

/-- Why a value cannot be written. -/
inductive WriteFault where
  -- An integer with more digits than are written.
  | tooManyDigits (digits : Nat)
  -- Containers nested too deeply.
  | tooDeep
  deriving DecidableEq, Repr

/-- An integer in decimal, if it has no more digits than are written. -/
def Text.ofInt? (n : Int) : Except WriteFault Text :=
  let digits := decimalLength n.natAbs
  if Numeral.digitLimit < digits then .error (.tooManyDigits digits) else .ok (.ofInt n)

namespace Value

mutual

/-- The first fault of a value, where `depth` levels have room and a value without parts takes
`leaf` of them. -/
def checkLevels (leaf depth : Nat) : Value → Except WriteFault Unit
  | .int n => if depth < leaf then .error .tooDeep else discard (Text.ofInt? n)
  | .list items =>
    match depth with
    | 0 => .error .tooDeep
    | depth + 1 => checkItems leaf depth items
  | .object members =>
    match depth with
    | 0 => .error .tooDeep
    | depth + 1 => checkMembers leaf depth members
  | .null | .bool _ | .float _ | .text _ => if depth < leaf then .error .tooDeep else .ok ()

/-- The first fault of the items of a list. -/
def checkItems (leaf depth : Nat) : List Value → Except WriteFault Unit
  | [] => .ok ()
  | v :: rest => do
    checkLevels leaf depth v
    checkItems leaf depth rest

/-- The first fault of the members of an object. -/
def checkMembers (leaf depth : Nat) : List (Text × Value) → Except WriteFault Unit
  | [] => .ok ()
  | (_, v) :: rest => do
    checkLevels leaf depth v
    checkMembers leaf depth rest

end

/-- The first fault of a value, where `depth` containers have room one within the other. -/
def check (depth : Nat) (v : Value) : Except WriteFault Unit := v.checkLevels 0 depth

/-- The first fault of a value that is shown with all that it holds, each value on a level. -/
def checkShown (depth : Nat) (v : Value) : Except WriteFault Unit := v.checkLevels 1 depth

/-- A value as JSON text, if it can be written. -/
def print? (s : Separators) (depth : Nat) (v : Value) : Except WriteFault Text := do
  v.check depth
  return v.print s

/-- A value as diagnostics show it, if it can be written. -/
def display? (depth : Nat) (v : Value) : Except WriteFault Text := do
  v.check depth
  return v.display

/-- The plain text of a value, if it can be written. -/
def plain? (depth : Nat) (v : Value) : Except WriteFault Text := do
  v.check depth
  return v.plain

end Value

end OscMonitor
