import OscMonitor.Text.Blank
import OscMonitor.Text.DecimalDigit

/-!
# Wrapped text

A text laid out in lines of a limited width. Lines may be broken at blanks, after a hyphen between
letters, and around a dash between words; what is longer than a line is cut.

* `Text.pieces` are the parts that lines are made of; put together they are the text again
  (`flatten_pieces`).
* `Text.wrap` lays a text out. As many pieces stand in a line as fit (`takeFitting_append` says that
  none is lost), without blanks at its ends.
-/

namespace OscMonitor

namespace CodePoint

/-- Whether a code point separates words: a space, or a control character that moves the place of
writing. -/
def isSpace : CodePoint → Bool
  | scalar c => c == ' ' || ('\t' ≤ c && c ≤ '\r')
  | surrogate _ => false

/-- Whether a code point is a decimal digit, of any script. -/
def isDecimal (p : CodePoint) : Bool := (Text.asciiDigit p).isDigit

/-- Whether a code point counts as a letter of a word. So do underscores, and beyond ASCII whatever
is neither blank nor a digit. -/
def isLetter : CodePoint → Bool
  | scalar c =>
    c.isAlpha || c == '_' ||
      (0x80 ≤ c.toNat && !Text.isBlank (scalar c) && !(scalar c).isDecimal)
  | surrogate _ => false

def isWord (p : CodePoint) : Bool := p.isLetter || p.isDecimal

/-- Whether a dash between words may follow a code point. -/
def endsWord (p : CodePoint) : Bool :=
  p.isWord || ("!\"'&.,?" : Text).contains p

def isHyphen (p : CodePoint) : Bool := p == scalar '-'

end CodePoint

namespace Text

/-- A text that begins with two letters, or with two letters and a hyphen between them. -/
def beginsWithLetters : Text → Bool
  | p :: q :: rest => p.isLetter && (q.isLetter || (q.isHyphen && rest.head?.any (·.isLetter)))
  | _ => false

/-- Whether a line may be broken after a hyphen: letters stand before and after it. `before` is the
text up to the break, read backwards. -/
def breaksAfterHyphen (before after : Text) : Bool :=
  match before with
  | p :: rest => p.isHyphen && beginsWithLetters rest && beginsWithLetters after
  | [] => false

/-- A text that begins with two hyphens or more, and then with what `follows`. -/
def beginsWithDash (follows : CodePoint → Bool) (t : Text) : Bool :=
  2 ≤ (t.takeWhile (·.isHyphen)).length && (t.dropWhile (·.isHyphen)).head?.any follows

/-- Whether a line may be broken before a dash between words. -/
def breaksBeforeDash (before after : Text) : Bool :=
  before.head?.any (·.endsWord) && beginsWithDash (·.isWord) after

/-- Whether a line may be broken after a dash between words. -/
def breaksAfterDash (before after : Text) : Bool :=
  beginsWithDash (·.endsWord) before && after.head?.any (·.isWord)

/-- Whether spaces begin or end at a place. -/
def changesSpace (before after : Text) : Bool :=
  before.head?.any (·.isSpace) != after.head?.any (·.isSpace)

/-- Whether a piece ends at a place. `before` is the text up to the place, read backwards. -/
def breaks (before after : Text) : Bool :=
  changesSpace before after || breaksAfterHyphen before after ||
    breaksBeforeDash before after || breaksAfterDash before after

/-- The pieces of the rest of a text, of which `piece` is already begun; both it and `before` are
read backwards. -/
def piecesAfter (before piece : Text) : Text → List Text
  | [] => [piece.reverse]
  | p :: rest =>
    if breaks before (p :: rest) then piece.reverse :: piecesAfter (p :: before) [p] rest
    else piecesAfter (p :: before) (p :: piece) rest

/-- The pieces of a text. -/
def pieces : Text → List Text
  | [] => []
  | p :: rest => piecesAfter [p] [p] rest

theorem flatten_piecesAfter (before piece t : Text) :
    (piecesAfter before piece t).flatten = piece.reverse ++ t := by
  induction t generalizing before piece with
  | nil => simp [piecesAfter]
  | cons p rest ih =>
    unfold piecesAfter
    split
    · simp [ih]
    · simp [ih]

/-- The pieces of a text make up the text. -/
theorem flatten_pieces (t : Text) : t.pieces.flatten = t := by
  cases t with
  | nil => rfl
  | cons p rest => simp [pieces, flatten_piecesAfter]

/-- Takes pieces as long as they fit. -/
def takeFitting (room : Nat) : List Text → List Text × List Text
  | [] => ([], [])
  | piece :: rest =>
    if piece.length ≤ room then
      let (line, left) := takeFitting (room - piece.length) rest
      (piece :: line, left)
    else ([], piece :: rest)

theorem takeFitting_append (room : Nat) (ts : List Text) :
    (takeFitting room ts).1 ++ (takeFitting room ts).2 = ts := by
  induction ts generalizing room with
  | nil => rfl
  | cons piece rest ih =>
    unfold takeFitting
    split
    · simp [ih]
    · simp

/-- Where a piece is cut that is longer than a line: after the last hyphen for which there is room
and before which something else stands, or else where the room ends. -/
def cutPlace (room : Nat) (piece : Text) : Nat :=
  match (piece.take room).reverse.dropWhile fun p => !p.isHyphen with
  | _ :: before => if before.any fun p => !p.isHyphen then before.length + 1 else room
  | [] => room

/-- The room that a line has beside what stands in it; a line of no width has room for one code
point. -/
def roomBeside (width : Nat) (line : List Text) : Nat :=
  if width = 0 then 1 else width - line.flatten.length

/-- Takes the pieces of a line. If the next one is longer than any line, its front goes into the
line too. -/
def takeLine (width : Nat) (ts : List Text) : List Text × List Text :=
  let (line, left) := takeFitting width ts
  match left with
  | [] => (line, [])
  | piece :: rest =>
    if width < piece.length then
      let place := cutPlace (roomBeside width line) piece
      (line ++ [piece.take place], piece.drop place :: rest)
    else (line, left)

/-- Drops the last piece when it is blank. -/
def dropBlankEnd (line : List Text) : List Text :=
  if line.getLast?.any (·.all isBlank) then line.dropLast else line

/-- Drops the first piece when it is blank. -/
def dropBlankStart : List Text → List Text
  | [] => []
  | piece :: rest => if piece.all isBlank then rest else piece :: rest

/-- How much there is to lay out. -/
def weight (ts : List Text) : Nat := ts.flatten.length + ts.length

theorem weight_append (s t : List Text) : weight (s ++ t) = weight s + weight t := by
  simp only [weight, List.flatten_append, List.length_append]
  omega

theorem weight_cons (piece : Text) (ts : List Text) :
    weight (piece :: ts) = piece.length + 1 + weight ts := by
  simp only [weight, List.flatten_cons, List.length_append, List.length_cons]
  omega

theorem weight_dropBlankStart_le (ts : List Text) : weight (dropBlankStart ts) ≤ weight ts := by
  cases ts with
  | nil => exact Nat.le_refl _
  | cons piece rest =>
    simp only [dropBlankStart]
    split
    · rw [weight_cons]
      omega
    · exact Nat.le_refl _

theorem cutPlace_pos {room : Nat} (h : 0 < room) (piece : Text) : 0 < cutPlace room piece := by
  unfold cutPlace
  split
  · split
    · omega
    · exact h
  · exact h

/-- A line takes something from what there is. -/
theorem weight_takeLine_lt (width : Nat) {ts : List Text} (h : ts ≠ []) :
    weight (takeLine width ts).2 < weight ts := by
  have whole := takeFitting_append width ts
  unfold takeLine
  generalize hfit : takeFitting width ts = fitting at whole
  obtain ⟨line, left⟩ := fitting
  simp only at whole ⊢
  -- nothing is lost: what is not on the line is left
  have total : weight ts = weight line + weight left := by rw [← whole, weight_append]
  cases left with
  | nil =>
    cases ts with
    | nil => exact absurd rfl h
    | cons piece rest =>
      have nothing : weight [] = 0 := rfl
      rw [weight_cons, nothing]
      omega
  | cons piece rest =>
    simp only
    -- with nothing on the line yet, the piece is too long for any line and has to be cut
    cases line with
    | nil =>
      have long : width < piece.length := by
        rw [List.nil_append] at whole
        rw [← whole, takeFitting] at hfit
        split at hfit
        · simp at hfit
        · omega
      rw [if_pos long]
      have room : 0 < roomBeside width [] := by
        unfold roomBeside
        rw [List.flatten_nil, List.length_nil]
        split <;> omega
      have place := cutPlace_pos room piece
      simp only [weight_cons, List.length_drop] at total ⊢
      simp only [weight, List.flatten_nil, List.length_nil] at total ⊢
      omega
    | cons first line =>
      -- with something on the line, that alone is less to be laid out
      rw [weight_cons] at total
      split
      · simp only [weight_cons, List.length_drop] at total ⊢
        omega
      · simp only
        omega

/-- Lays pieces out in lines. -/
def wrapPieces (width : Nat) (ts : List Text) : List Text :=
  if _h : dropBlankStart ts = [] then []
  else
    let taken := takeLine width (dropBlankStart ts)
    match dropBlankEnd taken.1 with
    | [] => wrapPieces width taken.2
    | first :: others => (first :: others).flatten :: wrapPieces width taken.2
termination_by weight ts
decreasing_by
  all_goals exact Nat.lt_of_lt_of_le (weight_takeLine_lt width _h) (weight_dropBlankStart_le ts)

/-- A text in which every run of spaces is one space, without blanks at its ends. -/
def singleSpaced (t : Text) : Text :=
  let rec collapse (after : Bool) : Text → Text
    | [] => []
    | p :: rest =>
      if p.isSpace then
        if after then collapse true rest else .scalar ' ' :: collapse true rest
      else p :: collapse false rest
  trim isBlank (collapse false t)

/-- Lays a text out in lines of a width. -/
def wrap (width : Nat) (t : Text) : List Text := wrapPieces width t.singleSpaced.pieces

end Text

end OscMonitor
