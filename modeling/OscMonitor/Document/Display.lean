import OscMonitor.Document.Value
import OscMonitor.Number.Layout
import OscMonitor.Text.Quoted

/-!
# Displaying a value

A value as diagnostics and log lines show it: texts in quotes, `None`, `True` and `False` for the
three words, integers and doubles in full.
-/

namespace OscMonitor.Value

mutual

/-- A value as diagnostics show it. -/
def display : Value → Text
  | .null => "None"
  | .bool b => if b then "True" else "False"
  | .int n => .ofInt n
  | .float x => x.text
  | .text t => t.quoted
  | .list items => "[" ++ displayItems items ++ "]"
  | .object members => "\x7b" ++ displayMembers members ++ "\x7d"

/-- The items of a list with separators between them. -/
def displayItems : List Value → Text
  | [] => []
  | v :: rest =>
    match rest with
    | [] => display v
    | _ :: _ => display v ++ ", " ++ displayItems rest

/-- The members of an object with separators between them. -/
def displayMembers : List (Text × Value) → Text
  | [] => []
  | (key, v) :: rest =>
    match rest with
    | [] => key.quoted ++ ": " ++ display v
    | _ :: _ => key.quoted ++ ": " ++ display v ++ ", " ++ displayMembers rest

end

end OscMonitor.Value
