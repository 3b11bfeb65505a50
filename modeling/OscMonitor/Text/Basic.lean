/-!
# Text

Text as the daemon and its operators exchange it: a list of Unicode code points in which half of
a surrogate pair may stand alone. A reply can spell such a half with an escape, so text is not
always a `String`.

* `CodePoint.number` orders code points and `Text.le` orders texts, lexicographically.
* `Text.ofString` embeds ordinary strings; `Text.toString?` is the string of a text
  without surrogates.
-/

namespace OscMonitor

/-- A Unicode code point: a character, or a surrogate counted from U+D800. -/
inductive CodePoint where
  | scalar (c : Char)
  | surrogate (offset : Fin 2048)
  deriving DecidableEq, Repr, Inhabited

/-- A sequence of code points. -/
abbrev Text := List CodePoint

namespace CodePoint

def number : CodePoint → Nat
  | scalar c => c.toNat
  | surrogate offset => 0xD800 + offset.val

/-- The code point with a given number; numbers beyond Unicode give U+0000. -/
def ofNumber (n : Nat) : CodePoint :=
  if h : 0xD800 ≤ n ∧ n < 0xE000 then surrogate ⟨n - 0xD800, by omega⟩ else scalar (Char.ofNat n)

def isScalar : CodePoint → Bool
  | scalar _ => true
  | surrogate _ => false

/-- The value of a decimal digit `0` to `9`. -/
def digit? : CodePoint → Option Nat
  | scalar c => if '0' ≤ c ∧ c ≤ '9' then some (c.toNat - 48) else none
  | surrogate _ => none

/-- Whether the code point is one of the digits `0` to `9`. -/
def isDigit (p : CodePoint) : Bool := p.digit?.isSome

/-- The value of a hexadecimal digit, in either case. -/
def hexDigit? : CodePoint → Option Nat
  | scalar c =>
    if '0' ≤ c ∧ c ≤ '9' then some (c.toNat - 48)
    else if 'a' ≤ c ∧ c ≤ 'f' then some (c.toNat - 87)
    else if 'A' ≤ c ∧ c ≤ 'F' then some (c.toNat - 55)
    else none
  | surrogate _ => none

/-- ASCII letters in lower case; every other code point as it is. -/
def lowerAscii : CodePoint → CodePoint
  | scalar c => scalar c.toLower
  | surrogate offset => surrogate offset

end CodePoint

namespace Text

def ofString (s : String) : Text := s.toList.map .scalar

instance : Coe String Text := ⟨ofString⟩

instance : HAppend String Text Text := ⟨fun s t => ofString s ++ t⟩

instance : HAppend Text String Text := ⟨fun t s => t ++ ofString s⟩

@[simp] theorem string_append (s : String) (t : Text) : s ++ t = ofString s ++ t := rfl

@[simp] theorem append_string (t : Text) (s : String) : t ++ s = t ++ ofString s := rfl

/-- The characters of a text that holds no surrogate. -/
def toChars? : Text → Option (List Char)
  | [] => some []
  | .scalar c :: rest => (toChars? rest).map (c :: ·)
  | .surrogate _ :: _ => none

/-- The string of a text that holds no surrogate. -/
def toString? (t : Text) : Option String := t.toChars?.map String.ofList

/-- Lexicographic order by code point number. -/
def le : Text → Text → Bool
  | [], _ => true
  | _ :: _, [] => false
  | a :: s, b :: t => a.number < b.number || (a.number == b.number && le s t)

/-- The decimal digits of a natural number. -/
def ofNat (n : Nat) : Text := (Nat.toDigits 10 n).map .scalar

/-- An integer in decimal, with a minus sign when it is negative. -/
def ofInt : Int → Text
  | .ofNat n => ofNat n
  | .negSucc n => .scalar '-' :: ofNat (n + 1)

/-- The number that a list of decimal digits denotes; what is no digit counts as zero. -/
def digitsValue (t : Text) : Nat := t.foldl (fun n p => 10 * n + p.digit?.getD 0) 0

/-- Drops what satisfies `p` from the end. -/
def trimEnd (p : CodePoint → Bool) (t : Text) : Text := (t.reverse.dropWhile p).reverse

/-- Drops what satisfies `p` from both ends. -/
def trim (p : CodePoint → Bool) (t : Text) : Text := trimEnd p (t.dropWhile p)

/-- Lower case of the ASCII letters. -/
def lowerAscii (t : Text) : Text := t.map CodePoint.lowerAscii

/-- The texts one after the other, with `separator` between neighbours. -/
def join (separator : Text) : List Text → Text
  | [] => []
  | [t] => t
  | t :: rest => t ++ separator ++ join separator rest

/-- Spaces on the right up to a width. -/
def padRight (width : Nat) (t : Text) : Text := t ++ List.replicate (width - t.length) (.scalar ' ')

theorem le_refl (t : Text) : le t t = true := by
  induction t with
  | nil => rfl
  | cons p t ih => simp [le, ih]

end Text

end OscMonitor
