import OscMonitor.Text.Basic

/-!
# UTF-8

Bytes to text and back. Decoding is strict: no overlong form, no surrogate, nothing above
U+10FFFF. A refusal names the longest run of bytes that begins a form and the reason why the
form does not go on.

* `Utf8.encode` writes characters; `Utf8.decode` reads text.
* `Utf8.Fault.message` is the wording of a refusal.
-/

namespace OscMonitor

/-- A sequence of bytes. -/
abbrev Bytes := List UInt8

namespace Utf8

/-- Why bytes are not UTF-8. -/
inductive Reason where
  | invalidStart
  | invalidContinuation
  | unexpectedEnd
  deriving DecidableEq, Repr

/-- A refusal: the offending bytes, by the position of the first and their number (at least one). -/
structure Fault where
  reason : Reason
  position : Nat
  width : Nat
  first : UInt8
  deriving DecidableEq, Repr

def encodeChar (c : Char) : Bytes :=
  let n := c.toNat
  if n < 0x80 then [.ofNat n]
  else if n < 0x800 then [.ofNat (0xC0 + n / 0x40), .ofNat (0x80 + n % 0x40)]
  else if n < 0x10000 then
    [.ofNat (0xE0 + n / 0x1000), .ofNat (0x80 + n / 0x40 % 0x40), .ofNat (0x80 + n % 0x40)]
  else
    [.ofNat (0xF0 + n / 0x40000), .ofNat (0x80 + n / 0x1000 % 0x40),
      .ofNat (0x80 + n / 0x40 % 0x40), .ofNat (0x80 + n % 0x40)]

def encode (cs : List Char) : Bytes := cs.flatMap encodeChar

/-- The six bits that a continuation byte carries. -/
def continuation? (b : UInt8) : Option Nat :=
  if 0x80 ≤ b.toNat ∧ b.toNat < 0xC0 then some (b.toNat - 0x80) else none

/-- The six bits of the byte after a three-byte lead: no overlong form and no surrogate. -/
def secondOfThree? (lead second : UInt8) : Option Nat :=
  if (lead = 0xE0 ∧ second < 0xA0) ∨ (lead = 0xED ∧ 0xA0 ≤ second) then none
  else continuation? second

/-- The six bits of the byte after a four-byte lead: no overlong form, nothing above U+10FFFF. -/
def secondOfFour? (lead second : UInt8) : Option Nat :=
  if (lead = 0xF0 ∧ second < 0x90) ∨ (lead = 0xF4 ∧ 0x90 ≤ second) then none
  else continuation? second

/-- Decodes bytes, the first of which stands at `position`. -/
def decodeAt (position : Nat) : Bytes → Except Fault Text
  | [] => .ok []
  | b :: rest =>
    let refuse (reason : Reason) (width : Nat) : Except Fault Text :=
      .error ⟨reason, position, width, b⟩
    if b < 0x80 then do
      return .scalar (Char.ofNat b.toNat) :: (← decodeAt (position + 1) rest)
    else if b < 0xC2 then refuse .invalidStart 1
    else if b < 0xE0 then
      match rest with
      | [] => refuse .unexpectedEnd 1
      | b₁ :: rest =>
        match continuation? b₁ with
        | none => refuse .invalidContinuation 1
        | some x₁ => do
          return .scalar (Char.ofNat ((b.toNat - 0xC0) * 0x40 + x₁)) ::
            (← decodeAt (position + 2) rest)
    else if b < 0xF0 then
      match rest with
      | [] => refuse .unexpectedEnd 1
      | b₁ :: rest =>
        match secondOfThree? b b₁, rest with
        | none, _ => refuse .invalidContinuation 1
        | some _, [] => refuse .unexpectedEnd 2
        | some x₁, b₂ :: rest =>
          match continuation? b₂ with
          | none => refuse .invalidContinuation 2
          | some x₂ => do
            return .scalar (Char.ofNat ((b.toNat - 0xE0) * 0x1000 + x₁ * 0x40 + x₂)) ::
              (← decodeAt (position + 3) rest)
    else if b < 0xF5 then
      match rest with
      | [] => refuse .unexpectedEnd 1
      | b₁ :: rest =>
        match secondOfFour? b b₁, rest with
        | none, _ => refuse .invalidContinuation 1
        | some _, [] => refuse .unexpectedEnd 2
        | some x₁, b₂ :: rest =>
          match continuation? b₂, rest with
          | none, _ => refuse .invalidContinuation 2
          | some _, [] => refuse .unexpectedEnd 3
          | some x₂, b₃ :: rest =>
            match continuation? b₃ with
            | none => refuse .invalidContinuation 3
            | some x₃ => do
              return .scalar (Char.ofNat
                  ((b.toNat - 0xF0) * 0x40000 + x₁ * 0x1000 + x₂ * 0x40 + x₃)) ::
                (← decodeAt (position + 4) rest)
    else refuse .invalidStart 1

/-- Decodes a whole byte sequence. -/
def decode (bytes : Bytes) : Except Fault Text := decodeAt 0 bytes

/-- The wording of a reason. -/
def Reason.message : Reason → String
  | .invalidStart => "invalid start byte"
  | .invalidContinuation => "invalid continuation byte"
  | .unexpectedEnd => "unexpected end of data"

/-- Two hexadecimal digits of a byte. -/
def hexByte (b : UInt8) : Text :=
  [.scalar (Nat.digitChar (b.toNat / 16)), .scalar (Nat.digitChar (b.toNat % 16))]

/-- The wording of a refusal: one byte is shown, several are given by their positions. -/
def Fault.message (f : Fault) : Text :=
  let place : Text :=
    if f.width = 1 then "byte 0x" ++ hexByte f.first ++ " in position " ++ .ofNat f.position
    else "bytes in position " ++ .ofNat f.position ++ "-" ++ .ofNat (f.position + f.width - 1)
  "'utf-8' codec can't decode " ++ place ++ ": " ++ f.reason.message

end Utf8

end OscMonitor
