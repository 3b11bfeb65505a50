import OscMonitor.Text.Basic

/-!
# Filled lines

Words laid out in lines of a limited width, as many to a line as fit. Words stay whole: one that is
longer than a line has a line of its own.
-/

namespace OscMonitor.Text

/-- Lines of words with a space between neighbours; `line` is the line that is being filled. -/
def fillAfter (width : Nat) (line : Text) : List Text → List Text
  | [] => if line.isEmpty then [] else [line]
  | word :: rest =>
    if line.isEmpty then fillAfter width word rest
    else if line.length + 1 + word.length ≤ width then
      fillAfter width (line ++ " " ++ word) rest
    else line :: fillAfter width word rest

/-- Lays words out in lines of a width. -/
def fill (width : Nat) (words : List Text) : List Text := fillAfter width [] words

/-- Lays out the lines of a text, each with a line end. -/
def lines (ts : List Text) : Text := ts.flatMap fun t => t ++ "\n"

end OscMonitor.Text
