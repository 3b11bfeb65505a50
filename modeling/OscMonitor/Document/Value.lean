import OscMonitor.Number.Double
import OscMonitor.Text.Keyed

/-!
# Documents

The values a reply is made of: JSON with integers of any size kept apart from doubles, text that
may hold lone surrogates, and members in the order of the document.
-/

namespace OscMonitor

/-- A value of a document. -/
inductive Value where
  | null
  | bool (b : Bool)
  | int (n : Int)
  | float (x : Double)
  | text (t : Text)
  | list (items : List Value)
  | object (members : List (Text × Value))
  deriving Repr, Inhabited

/-- The members of an object, in order; no key occurs twice in an object that was read. -/
abbrev Object := Keyed Value

/-- The sort of a value, as diagnostics name it. -/
def Value.sortName : Value → String
  | .null => "NoneType"
  | .bool _ => "bool"
  | .int _ => "int"
  | .float _ => "float"
  | .text _ => "str"
  | .list _ => "list"
  | .object _ => "dict"

end OscMonitor
