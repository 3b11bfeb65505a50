import OscMonitor.Report.Basic

/-!
# Diagnostics of a reply

What a report had to leave out: the parts of a reply that are no objects, and the fields whose
values are not accepted. They come topic by topic, part by part and field by field, a malformed
part before the fields.
-/

namespace OscMonitor

/-- One thing that a report leaves out. -/
inductive Diagnostic where
  -- The value that stands for a part is no object.
  | malformed (part : Part) (value : Value)
  -- A field does not take its value.
  | invalid (field : Field) (value : Value) (reason : Rejection)
  deriving Repr

def Part.diagnostic? (o : Object) (p : Part) : Option Diagnostic :=
  (p.malformed? o).map (.malformed p)

def Field.diagnostic? (o : Object) (f : Field) : Option Diagnostic :=
  match f.wire o with
  | none => none
  | some v =>
    match f.kind.accept v with
    | .ok _ => none
    | .error reason => some (.invalid f v reason)

def Part.diagnostics (o : Object) (p : Part) : List Diagnostic :=
  (p.diagnostic? o).toList ++ p.fields.filterMap (·.diagnostic? o)

def Topic.diagnostics (o : Object) (topic : Topic) : List Diagnostic :=
  topic.parts.flatMap (·.diagnostics o)

/-- The diagnostics of a reply. -/
def Report.diagnostics (o : Object) : List Diagnostic := Topic.all.flatMap (·.diagnostics o)

end OscMonitor
