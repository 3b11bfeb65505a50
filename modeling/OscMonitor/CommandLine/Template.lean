import OscMonitor.Document.Display

/-!
# Templates

Descriptions are templates. A percent sign begins a place, which is filled when the description is
shown: `%%` with a percent sign, and `%(name)s` with the property of that name. Between the two
there may be flags (a minus sign puts the value on the left), the least width of the place, and
after a point the greatest length of the value. The last letter says how the value is written; a
place without a name takes what the place before it has left over, and at first all the properties
together.

* `Template.fill` fills the places of a template from left to right; the first fault counts.
-/

namespace OscMonitor.CommandLine

/-- Why a template cannot be filled. -/
inductive TemplateFault where
  -- It ends within a place.
  | unfinished
  -- It ends within the name of a property.
  | unfinishedName
  | tooWide
  | tooLong
  | unknownProperty (name : Text)
  -- A place without a name for which no value is left.
  | nothingLeft
  -- A width or length is to be taken from a value that is no integer.
  | unsuitableSize
  -- The letter asks for an integer, and the value is of another sort.
  | notInteger (letter : CodePoint) (sort : String)
  -- The letter asks for a number, and the value is of another sort.
  | notNumber (letter : CodePoint) (sort : String)
  -- The letter asks for a double, and the value is of another sort.
  | notDouble (sort : String)
  | notCharacter
  | unknownLetter (letter : CodePoint) (position : Nat)
  deriving Repr

/-- A letter as messages show it: a question mark stands for what is not in ASCII. -/
def TemplateFault.letterText (p : CodePoint) : Text :=
  if 31 ≤ p.number ∧ p.number < 127 then [p] else "?"

/-- What is said about a fault. -/
def TemplateFault.message : TemplateFault → Text
  | unfinished => "incomplete format"
  | unfinishedName => "incomplete format key"
  | tooWide => "width too big"
  | tooLong => "precision too big"
  | unknownProperty name => name.quoted
  | nothingLeft => "not enough arguments for format string"
  | unsuitableSize => "* wants int"
  | notInteger letter sort =>
    "%" ++ letterText letter ++ " format: an integer is required, not " ++ sort
  | notNumber letter sort =>
    "%" ++ letterText letter ++ " format: a real number is required, not " ++ sort
  | notDouble sort => "must be real number, not " ++ sort
  | notCharacter => "%c requires int or char"
  | unknownLetter letter position =>
    "unsupported format character '" ++ letterText letter ++ "' (0x" ++
      Text.hexPadded 1 letter.number ++ ") at index " ++ Text.ofNat position

namespace Template

/-- How the value of a place is set. -/
structure Setting where
  -- The value stands on the left of its place.
  left : Bool := false
  -- The least width of the place.
  width : Nat := 0
  -- The greatest length of the value.
  limit : Option Nat := none

/-- A value set in its place. -/
def Setting.apply (s : Setting) (t : Text) : Text :=
  let value := match s.limit with
    | some limit => t.take limit
    | none => t
  let blanks : Text := List.replicate (s.width - value.length) (.scalar ' ')
  if s.left then value ++ blanks else blanks ++ value

/-- The greatest width that can be written. -/
def widthLimit : Nat := 0x7fffffffffffffff

/-- The greatest length that can be written. -/
def lengthLimit : Nat := 0x7fffffff

/-- How far reading a template has come. -/
inductive Stage where
  -- Outside of places.
  | text
  -- After a percent sign.
  | opened
  -- Within a name, read backwards, and so many parentheses in it.
  | name (depth : Nat) (read : Text)
  | flags (s : Setting)
  | width (s : Setting)
  -- After a point.
  | point (s : Setting)
  | limit (s : Setting) (read : Nat)
  -- Before the letter.
  | letter (s : Setting)

/-- A template that is being filled: what is written, the value that a place without a name takes,
and how far reading has come. -/
structure Filling where
  written : Text
  value? : Option Value
  stage : Stage

/-- Goes on to another stage. -/
def Filling.goTo (f : Filling) (stage : Stage) : Except TemplateFault Filling :=
  .ok { f with stage }

/-- A value as it is written in full. -/
def shown : Value → Text
  | .text t => t
  | v => v.display

/-- The text of a value for a letter; numbers are no properties. -/
def valueText (position : Nat) (letter : CodePoint) (v : Value) : Except TemplateFault Text :=
  let isOneOf (letters : Text) : Bool := letters.contains letter
  if isOneOf "s" then .ok (shown v)
  else if isOneOf "r" then .ok v.display
  else if isOneOf "a" then .ok v.display.asciiOnly
  else if isOneOf "diu" then .error (.notNumber letter v.sortName)
  else if isOneOf "oxX" then .error (.notInteger letter v.sortName)
  else if isOneOf "eEfFgG" then .error (.notDouble v.sortName)
  else if isOneOf "c" then .error .notCharacter
  else .error (.unknownLetter letter position)

/-- Takes the letter of a place, and fills the place. -/
def takeLetter (position : Nat) (f : Filling) (s : Setting) (p : CodePoint) :
    Except TemplateFault Filling :=
  match f.value? with
  | none => .error .nothingLeft
  | some v =>
    (valueText position p v).map fun t => ⟨f.written ++ s.apply t, none, .text⟩

/-- Takes a mark of size before the letter, which does not matter, or the letter. -/
def takeMark (position : Nat) (f : Filling) (s : Setting) (p : CodePoint) :
    Except TemplateFault Filling :=
  if ("hlL" : Text).contains p then f.goTo (.letter s) else takeLetter position f s p

/-- Takes a point or what follows. -/
def takePoint (position : Nat) (f : Filling) (s : Setting) (p : CodePoint) :
    Except TemplateFault Filling :=
  if p = .scalar '.' then f.goTo (.point { s with limit := some 0 }) else takeMark position f s p

/-- What is wrong with a star, which takes the value that is left as a size: no value is one. -/
def starFault (f : Filling) : TemplateFault :=
  if f.value?.isSome then .unsuitableSize else .nothingLeft

/-- Takes a width or what follows. -/
def takeWidth (position : Nat) (f : Filling) (s : Setting) (p : CodePoint) :
    Except TemplateFault Filling :=
  if p = .scalar '*' then .error (starFault f)
  else
    match p.digit? with
    | some n => f.goTo (.width { s with width := n })
    | none => takePoint position f s p

/-- Takes a flag or what follows. -/
def takeFlag (position : Nat) (f : Filling) (s : Setting) (p : CodePoint) :
    Except TemplateFault Filling :=
  if p = .scalar '-' then f.goTo (.flags { s with left := true })
  else if ("+ #0" : Text).contains p then f.goTo (.flags s)
  else takeWidth position f s p

/-- Takes another digit of a width, or what follows. -/
def growWidth (position : Nat) (f : Filling) (s : Setting) (p : CodePoint) :
    Except TemplateFault Filling :=
  match p.digit? with
  | some n =>
    let width := 10 * s.width + n
    if widthLimit < width then .error .tooWide else f.goTo (.width { s with width })
  | none => takePoint position f s p

/-- Takes a length or what follows. -/
def takeLimit (position : Nat) (f : Filling) (s : Setting) (p : CodePoint) :
    Except TemplateFault Filling :=
  if p = .scalar '*' then .error (starFault f)
  else
    match p.digit? with
    | some n => f.goTo (.limit s n)
    | none => takeMark position f s p

/-- Takes another digit of a length, or what follows. -/
def growLimit (position : Nat) (f : Filling) (s : Setting) (read : Nat) (p : CodePoint) :
    Except TemplateFault Filling :=
  match p.digit? with
  | some n =>
    let read := 10 * read + n
    if lengthLimit < read then .error .tooLong else f.goTo (.limit s read)
  | none => takeMark position f { s with limit := some read } p

/-- Takes a code point of a name. Parentheses within a name come in pairs; the one that ends it has
none. -/
def takeName (properties : Object) (f : Filling) (depth : Nat) (read : Text) (p : CodePoint) :
    Except TemplateFault Filling :=
  if p = .scalar ')' then
    match depth with
    | 0 =>
      match properties.get? read.reverse with
      | some v => .ok { f with value? := some v, stage := .flags {} }
      | none => .error (.unknownProperty read.reverse)
    | depth + 1 => f.goTo (.name depth (p :: read))
  else f.goTo (.name (if p = .scalar '(' then depth + 1 else depth) (p :: read))

def step (properties : Object) (position : Nat) (f : Filling) (p : CodePoint) :
    Except TemplateFault Filling :=
  match f.stage with
  | .text =>
    if p = .scalar '%' then f.goTo .opened else .ok { f with written := f.written ++ [p] }
  | .opened =>
    if p = .scalar '%' then .ok { f with written := f.written ++ [p], stage := .text }
    else if p = .scalar '(' then f.goTo (.name 0 [])
    else takeFlag position f {} p
  | .name depth read => takeName properties f depth read p
  | .flags s => takeFlag position f s p
  | .width s => growWidth position f s p
  | .point s => takeLimit position f s p
  | .limit s read => growLimit position f s read p
  | .letter s => takeLetter position f s p

/-- What comes of a template when nothing follows. -/
def finish (f : Filling) : Except TemplateFault Text :=
  match f.stage with
  | .text => .ok f.written
  | .name .. => .error .unfinishedName
  | _ => .error .unfinished

def fillFrom (properties : Object) (position : Nat) (f : Filling) :
    Text → Except TemplateFault Text
  | [] => finish f
  | p :: rest =>
    match step properties position f p with
    | .ok f => fillFrom properties (position + 1) f rest
    | .error fault => .error fault

/-- Fills the places of a template with properties. -/
def fill (properties : Object) (t : Text) : Except TemplateFault Text :=
  fillFrom properties 0 ⟨[], some (.object properties), .text⟩ t

end Template

end OscMonitor.CommandLine
