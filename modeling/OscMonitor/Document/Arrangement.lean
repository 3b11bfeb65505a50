import OscMonitor.Document.Value

/-!
# Arranged documents

The members of an object have no order that matters, but they are written in some order. Where it
is not told which, it is a parameter: an arrangement puts the members of every object in order, and
neither adds nor drops one.

* `Object.sorted` is the order of the keys' code points.
* `Value.arranged` is a value with the members of all its objects arranged.
-/

namespace OscMonitor

/-- The members in the order of their keys. -/
def Object.sorted (o : Object) : Object := o.mergeSort fun a b => Text.le a.1 b.1

/-- An order for the members of each object. -/
structure Arrangement where
  members : Object → Object
  perm (o : Object) : (members o).Perm o

namespace Arrangement

/-- Members as they were put together. -/
def asMade : Arrangement := ⟨id, List.Perm.refl⟩

/-- Members in the order of their keys. -/
def byName : Arrangement := ⟨Object.sorted, fun _ => List.mergeSort_perm _ _⟩

end Arrangement

namespace Value

mutual

/-- A value with the members of all its objects arranged. -/
def arranged (a : Arrangement) : Value → Value
  | .list items => .list (arrangedItems a items)
  | .object members => .object (a.members (arrangedMembers a members))
  | v => v

/-- The items of a list, each with its members arranged. -/
def arrangedItems (a : Arrangement) : List Value → List Value
  | [] => []
  | v :: rest => arranged a v :: arrangedItems a rest

def arrangedMembers (a : Arrangement) : List (Text × Value) → List (Text × Value)
  | [] => []
  | (key, v) :: rest => (key, arranged a v) :: arrangedMembers a rest

end

theorem arrangedMembers_eq_map (a : Arrangement) (members : Object) :
    arrangedMembers a members = members.map fun (key, v) => (key, v.arranged a) := by
  induction members with
  | nil => rfl
  | cons m members ih => rw [arrangedMembers, ih, List.map_cons]

end Value

end OscMonitor
