import OscMonitor.Number.Layout
import OscMonitor.Number.Numeral
import OscMonitor.Report.Field

/-!
# Accepting a value for a field

Which values of a reply a field takes, by its kind. The rules are lenient about spelling and exact
about content: a number may be written as text, but it is never rounded into an integer, and a
boolean never counts as a number.

* `Kind.accept` gives the value of the kind, or the reason why there is none.
* `Kind.toValue` is the plain spelling of a value of the kind; `accept` takes it back.
-/

namespace OscMonitor

/-- Why a field does not take a value. -/
inductive Rejection where
  | notInteger
  | fractional
  | unparsableInteger
  | notFinite
  | integerTooLarge
  | negative
  | notNumber
  | unparsableNumber
  | notBoolean
  | unclearBoolean
  | notText
  | notUnicode
  | booleanForNumber
  deriving DecidableEq, Repr

/-- The wording of a rejection. -/
def Rejection.message : Rejection → String
  | notInteger => "Input should be a valid integer"
  | fractional => "Input should be a valid integer, got a number with a fractional part"
  | unparsableInteger => "Input should be a valid integer, unable to parse string as an integer"
  | notFinite => "Input should be a finite number"
  | integerTooLarge => "Unable to parse input string as an integer, exceeded maximum size"
  | negative => "Input should be greater than or equal to 0"
  | notNumber => "Input should be a valid number"
  | unparsableNumber => "Input should be a valid number, unable to parse string as a number"
  | notBoolean => "Input should be a valid boolean"
  | unclearBoolean => "Input should be a valid boolean, unable to interpret input"
  | notText => "Input should be a valid string"
  | notUnicode => "Input should be a valid string, unable to parse raw data as a unicode string"
  | booleanForNumber => "boolean for a numeric field"

namespace Accept

/-- The least integer that is too large for 64 bits with a sign. -/
def wordBound : Int := 0x8000000000000000

/-- Whether an integer fits 64 bits with a sign. -/
def isWord (n : Int) : Bool := -wordBound ≤ n && n < wordBound

/-- Whether a text is free of surrogates. -/
def isUnicode (t : Text) : Bool := t.all (·.isScalar)

def integerText (t : Text) : Except Rejection Int :=
  if isUnicode t then
    match Numeral.integer t with
    | .ok n => .ok n
    | .error .malformed => .error .unparsableInteger
    | .error .tooLong => .error .integerTooLarge
  else .error .notUnicode

/-- An integer written as a double: it must have no fraction and lie strictly within 64 bits. -/
def integerDouble (x : Double) : Except Rejection Int :=
  match x with
  | .finite .. =>
    match x.toInt? with
    | none => .error .fractional
    | some n => if -wordBound < n ∧ n < wordBound then .ok n else .error .integerTooLarge
  | _ => .error .notFinite

/-- An integer of any size. -/
def integer : Value → Except Rejection Int
  | .int n => .ok n
  | .float x => integerDouble x
  | .text t => integerText t
  | .bool _ => .error .booleanForNumber
  | _ => .error .notInteger

/-- An integer that is not negative. -/
def natural (v : Value) : Except Rejection Nat :=
  match integer v with
  | .ok (.ofNat n) => .ok n
  | .ok (.negSucc _) => .error .negative
  | .error reason => .error reason

def realText (t : Text) : Except Rejection Double :=
  if isUnicode t then
    match Numeral.real? t with
    | some x => .ok x
    | none => .error .unparsableNumber
  else .error .notUnicode

/-- A double; an integer is rounded to the nearest one. -/
def real : Value → Except Rejection Double
  | .float x => .ok x
  | .int n =>
    match Double.ofInt? n with
    | some x => .ok x
    | none => .error .notNumber
  | .text t => realText t
  | .bool _ => .error .booleanForNumber
  | _ => .error .notNumber

/-- The words for true, in lower case. -/
def yesWords : List Text := ["1", "on", "t", "true", "y", "yes"]

/-- The words for false, in lower case. -/
def noWords : List Text := ["0", "off", "f", "false", "n", "no"]

/-- A truth value written as an integer. -/
def flagInteger (n : Int) : Except Rejection Bool :=
  if n = 0 then .ok false
  else if n = 1 then .ok true
  else if isWord n then .error .unclearBoolean
  else .error .notBoolean

/-- A truth value written as text. -/
def flagText (t : Text) : Except Rejection Bool :=
  if isUnicode t then
    let word := Text.lowerAscii t
    if yesWords.contains word then .ok true
    else if noWords.contains word then .ok false
    else .error .unclearBoolean
  else .error .notUnicode

/-- A truth value. -/
def flag : Value → Except Rejection Bool
  | .bool b => .ok b
  | .int n => flagInteger n
  | .float x =>
    match integerDouble x with
    | .ok n => flagInteger n
    | .error _ => .error .notBoolean
  | .text t => flagText t
  | _ => .error .notBoolean

/-- A text; numbers are written in full. -/
def text : Value → Except Rejection Text
  | .text t => .ok t
  | .int n => .ok (.ofInt n)
  | .float x => .ok x.text
  | _ => .error .notText

end Accept

namespace Kind

/-- The value of a kind that a value of a reply stands for. -/
def accept : (k : Kind) → Value → Except Rejection k.Carrier
  | integer, v => Accept.integer v
  | natural, v => Accept.natural v
  | real, v => Accept.real v
  | flag, v => Accept.flag v
  | text, v => Accept.text v

/-- The plain spelling of a value of a kind. -/
def toValue : (k : Kind) → k.Carrier → Value
  | integer, n => .int n
  | natural, n => .int (Int.ofNat n)
  | real, x => .float x
  | flag, b => .bool b
  | text, t => .text t

/-- The plain spelling is taken back as it was. -/
theorem accept_toValue (k : Kind) (x : k.Carrier) : k.accept (k.toValue x) = .ok x := by
  cases k <;> rfl

end Kind

end OscMonitor
