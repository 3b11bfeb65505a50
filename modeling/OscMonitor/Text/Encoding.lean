import OscMonitor.Text.Quoted

/-!
# Encodings of streams

A stream takes a text when its encoding has every code point of it, and otherwise nothing of it.
Which encoding that is depends on the machine; that it has ASCII is all that is known of each.

* `Encoding.takes` tells whether a text can be written, and `Encoding.complaint` why not.
* `Encoding.utf8` has every character, and no half of a surrogate pair.
-/

namespace OscMonitor

/-- The encoding of a stream. -/
structure Encoding where
  name : Text
  -- Whether there are bytes for a code point.
  encodes : CodePoint → Bool
  -- What is said of code points for which there are none.
  reason : Text
  ascii (p : CodePoint) (h : p.number < 0x80) : encodes p = true

namespace Encoding

/-- A stream that keeps text as it is. -/
def unlimited : Encoding := ⟨"", fun _ => true, "", fun _ _ => rfl⟩

def utf8 : Encoding where
  name := "utf-8"
  encodes := CodePoint.isScalar
  reason := "surrogates not allowed"
  ascii p h := by
    cases p with
    | scalar c => rfl
    | surrogate offset =>
      simp only [CodePoint.number] at h
      omega

/-- Whether a text can be written. -/
def takes (e : Encoding) (t : Text) : Bool := t.all e.encodes

/-- What is said about a text that cannot be written: the first code points that are to blame, and
where they stand. -/
def complaint (e : Encoding) (t : Text) : Text :=
  let start := (t.takeWhile e.encodes).length
  let place : Text :=
    match (t.drop start).takeWhile fun p => !e.encodes p with
    | [p] => "character '" ++ Text.numberEscape p ++ "' in position " ++ Text.ofNat start
    | refused => "characters in position " ++ Text.ofNat start ++ "-" ++
        Text.ofNat (start + refused.length - 1)
  "'" ++ e.name ++ "' codec can't encode " ++ place ++ ": " ++ e.reason

/-- A text in two parts can be written when both of them can. -/
theorem takes_append (e : Encoding) (s t : Text) : e.takes (s ++ t) = (e.takes s && e.takes t) :=
  List.all_append

theorem takes_iff {e : Encoding} {t : Text} : e.takes t = true ↔ ∀ p ∈ t, e.encodes p = true :=
  List.all_eq_true

end Encoding

end OscMonitor
