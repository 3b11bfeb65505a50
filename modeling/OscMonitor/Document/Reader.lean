import OscMonitor.Document.Token

/-!
# Reading a document

JSON text to a value, by a machine that takes one token at a time and keeps the containers that
are still open. A refusal says what was expected where, so the state alone decides it.

* `Reader.State.step` takes one token; `Reader.State.expects` is what is missing when it cannot.
* `Value.read` is the whole reader; `ReadFault.message` is the wording of a refusal.
-/

namespace OscMonitor

namespace Reader

/-- A container that is still open: what it holds before the value that is being read. -/
inductive Frame where
  -- The items so far, the last one first.
  | list (before : List Value)
  | object (before : Object) (key : Text)
  deriving Repr

/-- What the reader waits for, with the open containers, the innermost first. -/
inductive State where
  | value (frames : List Frame)
  | firstItem (frames : List Frame)
  | firstName (frames : List Frame)
  | name (before : Object) (frames : List Frame)
  | colon (before : Object) (key : Text) (frames : List Frame)
  | after (v : Value) (frames : List Frame)
  deriving Repr

/-- How many containers may be open at once. -/
def depthLimit : Nat := 1000

namespace State

/-- What is wrong when a token does not fit. -/
def expects : State → SyntaxCause
  | value _ => .expectingValue
  | firstItem _ => .expectingValue
  | firstName _ => .expectingName
  | name _ _ => .expectingName
  | colon _ _ _ => .expectingColon
  | after _ [] => .extraData
  | after _ (_ :: _) => .expectingComma

/-- Takes a token where a value must stand. -/
def takeValue (frames : List Frame) (l : Lexeme) : Except ReadFault State :=
  match l.token with
  | .scalar v => .ok (.after v frames)
  | .text t => .ok (.after (.text t) frames)
  | .openList =>
    if depthLimit ≤ frames.length then .error (.tooDeep false) else .ok (.firstItem frames)
  | .openObject =>
    if depthLimit ≤ frames.length then .error (.tooDeep true) else .ok (.firstName frames)
  | .badText fault => .error fault
  | .badScalar fault => .error fault
  | _ => .error (.malformed .expectingValue l.rest)

/-- Takes a token where a member's name must stand. -/
def takeName (before : Object) (frames : List Frame) (l : Lexeme) : Except ReadFault State :=
  match l.token with
  | .text key => .ok (.colon before key frames)
  | .badText fault => .error fault
  | _ => .error (.malformed .expectingName l.rest)

/-- Takes one token. -/
def step (s : State) (l : Lexeme) : Except ReadFault State :=
  match s, l.token with
  | value frames, _ => takeValue frames l
  | firstItem frames, .closeList => .ok (.after (.list []) frames)
  | firstItem frames, _ => takeValue (.list [] :: frames) l
  | firstName frames, .closeObject => .ok (.after (.object []) frames)
  | firstName frames, _ => takeName [] frames l
  | name before frames, _ => takeName before frames l
  | colon before key frames, .colon => .ok (.value (.object before key :: frames))
  | after v (.list before :: frames), .comma => .ok (.value (.list (v :: before) :: frames))
  | after v (.list before :: frames), .closeList =>
    .ok (.after (.list (v :: before).reverse) frames)
  | after v (.object before key :: frames), .comma => .ok (.name (before.insert key v) frames)
  | after v (.object before key :: frames), .closeObject =>
    .ok (.after (.object (before.insert key v)) frames)
  | s, _ => .error (.malformed s.expects l.rest)

/-- Takes the tokens that remain, after which nothing may be open. -/
def run (s : State) : List Lexeme → Except ReadFault Value
  | [] =>
    match s with
    | after v [] => .ok v
    | s => .error (.malformed s.expects [])
  | l :: rest =>
    match s.step l with
    | .ok s => run s rest
    | .error fault => .error fault

end State

end Reader

/-- Reads a text as one value. -/
def Value.read (t : Text) : Except ReadFault Value :=
  if t.head? = some (.ofNumber 0xFEFF) then .error (.malformed .byteOrderMark t)
  else (Reader.State.value []).run (Lexeme.scan t)

/-! ## Wording -/

/-- The wording of a syntax error. -/
def SyntaxCause.message : SyntaxCause → String
  | .expectingValue => "Expecting value"
  | .expectingName => "Expecting property name enclosed in double quotes"
  | .expectingColon => "Expecting ':' delimiter"
  | .expectingComma => "Expecting ',' delimiter"
  | .extraData => "Extra data"
  | .unterminatedText => "Unterminated string starting at"
  | .controlCharacter => "Invalid control character at"
  | .badEscape => "Invalid \\escape"
  | .badUnicodeEscape => "Invalid \\uXXXX escape"
  | .byteOrderMark => "Unexpected UTF-8 BOM (decode using utf-8-sig)"

/-- A place in a text: lines and columns count from one, and only a line feed ends a line. -/
def placeMessage (t : Text) (position : Nat) : Text :=
  let before := t.take position
  let line := before.count (.scalar '\n') + 1
  let column := (before.reverse.takeWhile (· != .scalar '\n')).length + 1
  "line " ++ .ofNat line ++ " column " ++ .ofNat column ++ " (char " ++ .ofNat position ++ ")"

namespace ReadFault

/-- Where a malformed text went wrong, counted in code points from its start. -/
def position? (t : Text) : ReadFault → Option Nat
  | malformed _ rest => some (t.length - rest.length)
  | _ => none

/-- The wording of a refusal of the text `t`. -/
def message (t : Text) : ReadFault → Text
  | malformed cause rest =>
    (cause.message : Text) ++ ": " ++ placeMessage t (t.length - rest.length)
  | tooManyDigits digits =>
    "Exceeds the limit (4300 digits) for integer string conversion: value has " ++
      .ofNat digits ++ " digits; use sys.set_int_max_str_digits() to increase the limit"
  | tooDeep isObject =>
    "maximum recursion depth exceeded while decoding a JSON " ++
      Text.ofString (if isObject then "object" else "array") ++ " from a unicode string"

end ReadFault

end OscMonitor
