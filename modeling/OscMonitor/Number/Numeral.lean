import OscMonitor.Number.Double
import OscMonitor.Text.Blank
import OscMonitor.Text.DecimalDigit

/-!
# Numerals

Reading numbers from text: the pieces that all notations share, and the lenient notations in which
a text stands for a number.

* `Numeral.integer` reads an integer of any size up to `Numeral.digitLimit` digits, exactly.
* `Numeral.real?` reads a double, rounded to nearest.
* `Numeral.option?` reads a double from the command line.
-/

namespace OscMonitor.Numeral

/-- The greatest number of digits of an integer that is read or written. -/
def digitLimit : Nat := 4300

/-- Splits off the digits at the front. -/
def splitDigits (t : Text) : Text × Text := (t.takeWhile (·.isDigit), t.dropWhile (·.isDigit))

/-- Splits off a sign; true is minus. -/
def splitSign : Text → Bool × Text
  | .scalar '-' :: rest => (true, rest)
  | .scalar '+' :: rest => (false, rest)
  | t => (false, t)

/-- An integer from its sign and magnitude. -/
def signed (negative : Bool) (n : Nat) : Int := if negative then -(n : Int) else n

/-- Splits off an exponent: `e` in either case, an optional sign, at least one digit. -/
def splitExponent? : Text → Option (Int × Text)
  | .scalar c :: rest =>
    if c = 'e' ∨ c = 'E' then
      let (negative, body) := splitSign rest
      match splitDigits body with
      | ([], _) => none
      | (digits, rest) => some (signed negative (Text.digitsValue digits), rest)
    else none
  | _ => none

/-- The decimal with given digits before and after the point. -/
def decimal (whole fraction : Text) (exponent : Int) : Decimal :=
  Decimal.reduce (Text.digitsValue (whole ++ fraction)) (exponent - fraction.length)

/-- No underscore is first, last, or next to another. -/
def underscoresApart (t : Text) : Bool :=
  let rec follows (previous : Bool) : Text → Bool
    | [] => !previous
    | p :: rest =>
      let here := p == .scalar '_'
      !(here && previous) && follows here rest
  t.isEmpty || follows true t

def withoutUnderscores (t : Text) : Text := t.filter (· != .scalar '_')

/-- Splits off a point and the digits after it, where there is a point. -/
def splitFraction : Text → Text × Text
  | .scalar '.' :: rest => splitDigits rest
  | t => ([], t)

/-- Reads an exponent that nothing follows; no exponent is zero. -/
def exponent? (t : Text) : Option Int :=
  if t = [] then some 0
  else
    match splitExponent? t with
    | some (exponent, []) => some exponent
    | _ => none

/-- Reads a number after its sign: digits with at most one point among or around them, optional
exponent; or `inf`, `infinity` or `nan` in any case. -/
def unsignedReal? (negative : Bool) (t : Text) : Option Double :=
  let word := t.lowerAscii
  if word = "inf" ∨ word = "infinity" then some (.infinite negative)
  else if word = "nan" then some .nan
  else
    let (whole, rest) := splitDigits t
    let (fraction, rest) := splitFraction rest
    if whole = [] ∧ fraction = [] then none
    else (exponent? rest).map fun e => Double.ofDecimal negative (decimal whole fraction e)

/-- Reads a number without blanks and underscores, with an optional sign. -/
def plainReal? (t : Text) : Option Double :=
  let (negative, body) := splitSign t
  unsignedReal? negative body

/-- Reads a number with white space around it or with underscores apart within it, not with both. -/
def real? (t : Text) : Option Double :=
  (plainReal? (Text.trim Text.isWhiteSpace t)).or
    (if underscoresApart t then plainReal? (withoutUnderscores t) else none)

/-- Every underscore stands between two digits. -/
def underscoresBetweenDigits (t : Text) : Bool :=
  let rec follows (previous : Bool) : Text → Bool
    | [] => true
    | p :: rest =>
      if p = .scalar '_' then
        previous && (rest.head?.any (·.isDigit)) && follows false rest
      else follows p.isDigit rest
  follows false t

/-- Reads a number as an operator types it: digits of any script, white space around it,
underscores between digits. -/
def option? (t : Text) : Option Double :=
  let t := (Text.trim Text.isWhiteSpace t).map Text.asciiDigit
  if underscoresBetweenDigits t then plainReal? (withoutUnderscores t) else none

/-- Why a text is no integer. -/
inductive IntegerFault where
  | malformed
  | tooLong
  deriving DecidableEq, Repr

/-- A text that stands for no fraction: nothing, or a point and zeros. -/
def isZeroFraction : Text → Bool
  | [] => true
  | .scalar '.' :: zeros => !zeros.isEmpty && zeros.all (· == .scalar '0')
  | _ => false

/-- Splits off a sign, where a minus sign must not follow a plus sign. -/
def splitSoleSign? : Text → Option (Bool × Text)
  | .scalar '+' :: .scalar '-' :: _ => none
  | t => some (splitSign t)

/-- Drops zeros and underscores up to another digit or a minus sign. Before a point, and at the end
of the text, the last of them stays; `previous` is the one that came before. -/
def dropZerosAfter? (previous : CodePoint) : Text → Option Text
  | [] => some [previous]
  | p :: rest =>
    if p = .scalar '0' ∨ p = .scalar '_' then dropZerosAfter? p rest
    else if p.isDigit ∨ p = .scalar '-' then some (p :: rest)
    else if p = .scalar '.' then some (previous :: p :: rest)
    else none

/-- Drops the zeros in front of an integer, which begins with a digit or a minus sign. A minus sign
may also follow the zeros. -/
def dropZeros? : Text → Option Text
  | [] => none
  | p :: rest =>
    if p = .scalar '0' then dropZerosAfter? p rest
    else if p.isDigit ∨ p = .scalar '-' then some (p :: rest)
    else none

/-- Drops a fraction of zeros at the end. -/
def dropZeroFraction (t : Text) : Text :=
  let whole := t.takeWhile (· != .scalar '.')
  if isZeroFraction (t.drop whole.length) then whole else t

/-- Drops underscores that stand apart. -/
def dropUnderscores (t : Text) : Text := if underscoresApart t then withoutUnderscores t else t

/-- The text of an integer without what does not count: white space around it, a plus sign and
zeros in front, a fraction of zeros, underscores apart. A minus sign in front is put back. -/
def bareInteger? (t : Text) : Option Text := do
  let (negative, body) ← splitSoleSign? (Text.trim Text.isWhiteSpace t)
  let bare := dropUnderscores (dropZeroFraction (← dropZeros? body))
  return if negative then .scalar '-' :: bare else bare

/-- More than one digit, of which the first is zero. -/
def hasNeedlessZero : Text → Bool
  | p :: _ :: _ => p == .scalar '0'
  | _ => false

/-- Reads an integer in its plain form: an optional minus sign and digits, without needless
zeros. -/
def plainInteger (t : Text) : Except IntegerFault Int :=
  let (negative, body) := splitSign t
  let (digits, rest) := splitDigits body
  if hasNeedlessZero digits then .error .malformed
  else if digitLimit < digits.length then .error .tooLong
  else if digits.isEmpty || !rest.isEmpty then .error .malformed
  else .ok (signed negative (Text.digitsValue digits))

/-- Reads an integer with what does not count. -/
def integer (t : Text) : Except IntegerFault Int :=
  match bareInteger? t with
  | some bare => plainInteger bare
  | none => .error .malformed

end OscMonitor.Numeral
