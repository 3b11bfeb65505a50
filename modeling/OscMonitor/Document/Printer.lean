import OscMonitor.Document.Value
import OscMonitor.Number.Layout

/-!
# Printing a document

A value as JSON text in ASCII. What is not printable ASCII is escaped in units of UTF-16, so a
character beyond U+FFFF takes two escapes and a lone surrogate one. The non-finite doubles have
the words that the reader knows.

* `Value.print` takes the separators; `Value.spaced` and `Value.compact` choose them.
-/

namespace OscMonitor

/-- What stands between the items and between a key and its value. -/
structure Separators where
  item : String
  key : String

namespace Separators

/-- A space after each comma and colon. -/
def spaced : Separators := ⟨", ", ": "⟩

/-- No spaces. -/
def compact : Separators := ⟨",", ":"⟩

end Separators

def escapeUnit (n : Nat) : Text :=
  let digit (unit : Nat) : CodePoint := .scalar (Nat.digitChar (n / unit % 16))
  [.scalar '\\', .scalar 'u', digit 0x1000, digit 0x100, digit 0x10, digit 1]

/-- A code point between quotes. -/
def printPoint : CodePoint → Text
  | .scalar c =>
    if c = '"' then "\\\""
    else if c = '\\' then "\\\\"
    else if c = '\n' then "\\n"
    else if c = '\r' then "\\r"
    else if c = '\t' then "\\t"
    else if c = '\x0c' then "\\f"
    else if c = '\x08' then "\\b"
    else if ' ' ≤ c ∧ c ≤ '~' then [.scalar c]
    else if c.toNat < 0x10000 then escapeUnit c.toNat
    else
      let n := c.toNat - 0x10000
      escapeUnit (0xD800 + n / 0x400) ++ escapeUnit (0xDC00 + n % 0x400)
  | .surrogate offset => escapeUnit (0xD800 + offset.val)

/-- A text between quotes. -/
def printText (t : Text) : Text := "\"" ++ t.flatMap printPoint ++ "\""

/-- A double: in full, or the word for it. -/
def printDouble : Double → Text
  | .nan => "NaN"
  | .infinite negative => Double.signText negative ++ "Infinity"
  | x => x.text

namespace Value

mutual

/-- A value as JSON text. -/
def print (s : Separators) : Value → Text
  | .null => "null"
  | .bool b => if b then "true" else "false"
  | .int n => .ofInt n
  | .float x => printDouble x
  | .text t => printText t
  | .list items => "[" ++ printItems s items ++ "]"
  | .object members => "\x7b" ++ printMembers s members ++ "\x7d"

/-- The items of a list with separators between them. -/
def printItems (s : Separators) : List Value → Text
  | [] => []
  | v :: rest =>
    match rest with
    | [] => print s v
    | _ :: _ => print s v ++ s.item ++ printItems s rest

/-- The members of an object with separators between them. -/
def printMembers (s : Separators) : List (Text × Value) → Text
  | [] => []
  | (key, v) :: rest =>
    match rest with
    | [] => printText key ++ s.key ++ print s v
    | _ :: _ => printText key ++ s.key ++ print s v ++ s.item ++ printMembers s rest

end

/-- A value with a space after each comma and colon. -/
def spaced (v : Value) : Text := v.print .spaced

/-- A value without spaces. -/
def compact (v : Value) : Text := v.print .compact

end Value

end OscMonitor
