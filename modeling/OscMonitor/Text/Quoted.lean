import OscMonitor.Text.Printable

/-!
# Quoted display

A text between quotes, as log lines show it: single quotes, or double ones when the text holds a
single quote and no double one. The quote in use and the backslash are escaped, and so is every
code point that is not printable, by the shortest of the forms for tab, line feed and carriage
return, two, four or eight hexadecimal digits.
-/

namespace OscMonitor.Text

/-- The lower-case hexadecimal digits of a number, with zeros on the left up to a width. -/
def hexPadded (width n : Nat) : Text :=
  let digits := Nat.toDigits 16 n
  (List.replicate (width - digits.length) '0' ++ digits).map .scalar

/-- A code point by its number, in the shortest of the forms with two, four or eight digits. -/
def numberEscape (p : CodePoint) : Text :=
  if p.number < 0x100 then "\\x" ++ hexPadded 2 p.number
  else if p.number < 0x10000 then "\\u" ++ hexPadded 4 p.number
  else "\\U" ++ hexPadded 8 p.number

/-- How one code point stands between quotes of the given kind. -/
def quotePoint (quote : Char) (p : CodePoint) : Text :=
  if p = .scalar quote ∨ p = .scalar '\\' then [.scalar '\\', p]
  else if p = .scalar '\t' then "\\t"
  else if p = .scalar '\n' then "\\n"
  else if p = .scalar '\r' then "\\r"
  else if isPrintable p then [p]
  else numberEscape p

def quoteFor (t : Text) : Char :=
  if t.contains (.scalar '\'') && !t.contains (.scalar '"') then '"' else '\''

def quoted (t : Text) : Text :=
  let quote := quoteFor t
  .scalar quote :: t.flatMap (quotePoint quote) ++ [.scalar quote]

/-- A text in ASCII alone: every other code point stands by its number. -/
def asciiOnly (t : Text) : Text :=
  t.flatMap fun p => if p.number < 0x80 then [p] else numberEscape p

end OscMonitor.Text
