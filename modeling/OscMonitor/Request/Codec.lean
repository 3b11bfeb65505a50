import OscMonitor.Document.Printer
import OscMonitor.Document.Strict
import OscMonitor.Report.Accept
import OscMonitor.Request.Action
import OscMonitor.Text.Utf8

/-!
# Requests on the wire

A request is one compact JSON object with the code of the action, and no terminator. Reading one
is lenient about the spelling of the code and strict about everything else.

* `Action.toText` and `Action.toBytes` write a request.
* `Action.ofValue` is the action that a value stands for, `Action.ofText` that of a request.
-/

namespace OscMonitor

/-- What is wrong with a request. -/
inductive RequestCause where
  | notJson
  | notObject
  -- The value is no code of an action.
  | notCode
  -- The integer does not fit 64 bits.
  | codeTooLarge
  -- A member that requests do not have.
  | unknownMember
  deriving DecidableEq, Repr

/-- A fault of a request and the path to where it is. -/
structure RequestFault where
  path : List Text
  cause : RequestCause
  deriving DecidableEq, Repr

namespace RequestCause

def kind : RequestCause → String
  | notJson => "json_invalid"
  | notObject => "model_type"
  | notCode => "enum"
  | codeTooLarge => "int_parsing_size"
  | unknownMember => "extra_forbidden"

/-- The wording of a cause; a text that is no JSON has none. -/
def message? : RequestCause → Option String
  | notJson => none
  | notObject => some "Input should be an object"
  | notCode => some "Input should be 0, 1, 2, 3, 4, 5, 6, 7, 8, 9, 10, 11 or 12"
  | codeTooLarge => some Rejection.integerTooLarge.message
  | unknownMember => some "Extra inputs are not permitted"

end RequestCause

namespace Action

def member : Text := "request"

def toObject (a : Action) : Object := [(member, .int a.code)]

def toText (a : Action) : Text := (Value.object a.toObject).compact

/-- A request as bytes; all its code points are ASCII. -/
def toBytes (a : Action) : Bytes := a.toText.map fun p => UInt8.ofNat p.number

def ofInteger (n : Int) : Except RequestCause Action :=
  if Accept.isWord n then
    match ofCode? n with
    | some a => .ok a
    | none => .error .notCode
  else .error .codeTooLarge

/-- The action that a value stands for. Whatever counts as an integer may stand for its code, and
so may the truth values. -/
def ofValue : Value → Except RequestCause Action
  | .bool b => ofInteger (if b then 1 else 0)
  | v =>
    match Accept.integer v with
    | .ok n => ofInteger n
    | .error _ => .error .notCode

/-- The action of an object as it is written; without its member it asks for the status. The last
member of a name counts, and every one that requests do not have is a fault. -/
def ofMembers (members : Object) : Except (List RequestFault) Action :=
  let action := match members.last? member with
    | some v => ofValue v
    | none => .ok .status
  let unknown := (members.keys.filter (· ≠ member)).map fun name =>
    RequestFault.mk [name] .unknownMember
  match action, unknown with
  | .ok a, [] => .ok a
  | .ok _, faults => .error faults
  | .error cause, faults => .error (⟨[member], cause⟩ :: faults)

/-- The action of a request, or all that is wrong with it. -/
def ofText (t : Text) : Except (List RequestFault) Action :=
  match Strict.read? t with
  | some (.object members) => ofMembers members
  | some _ => .error [⟨[], .notObject⟩]
  | none => .error [⟨[], .notJson⟩]

def ofBytes (b : Bytes) : Except (List RequestFault) Action :=
  match Utf8.decode b with
  | .ok t => ofText t
  | .error _ => .error [⟨[], .notJson⟩]

end Action

end OscMonitor
