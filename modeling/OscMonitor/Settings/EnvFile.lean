import OscMonitor.Text.Blank
import OscMonitor.Text.Keyed

/-!
# Environment files

Files that give names values, one to a line: `NAME=value`, with an optional `export` before it.
Names and values may stand in quotes, a quoted value may go on over several lines, and a `#` after
a blank begins a comment. A line that cannot be read is skipped. In every value `${NAME}` stands
for the value of a name, and `${NAME:-text}` for the text when the name has none. A byte order mark
at the beginning does not count.

* `EnvFile.bindings` are the bindings of a file in order, `EnvFile.values` what comes of them.
-/

namespace OscMonitor

/-- Names with their values; a name can be listed without a value. -/
abbrev Bindings := Keyed (Option Text)

namespace EnvFile

def isLineEnd (p : CodePoint) : Bool := p == .scalar '\n' || p == .scalar '\r'

def isGap (p : CodePoint) : Bool := Text.isBlank p && !isLineEnd p

/-- Skips the blanks within a line. -/
def skipGap (t : Text) : Text := t.dropWhile isGap

/-- Skips the word `export` when a blank follows it. -/
def skipExport (t : Text) : Text :=
  let word : Text := "export"
  if word.isPrefixOf t && ((t.drop word.length).head?.any isGap) then skipGap (t.drop word.length)
  else t

def skipLine (t : Text) : Text := (t.dropWhile fun p => !isLineEnd p).drop 1

def skipComment (t : Text) : Text :=
  match skipGap t with
  | .scalar '#' :: rest => rest.dropWhile fun p => !isLineEnd p
  | _ => t

def lineEnd? (t : Text) : Option Text :=
  match skipGap t with
  | [] => some []
  | .scalar '\r' :: .scalar '\n' :: rest => some rest
  | p :: rest => if isLineEnd p then some rest else none

/-- Splits at the first quote that does not follow a backslash. `escaped` says whether a backslash
comes before. -/
def splitAtFree? (quote : CodePoint) (escaped : Bool) : Text → Option (Text × Text)
  | [] => none
  | p :: rest =>
    if p = quote && !escaped then some ([], rest)
    else (splitAtFree? quote (p == .scalar '\\') rest).map fun (body, rest) => (p :: body, rest)

/-- Splits at the last quote. -/
def splitAtLast? (quote : CodePoint) : Text → Option (Text × Text)
  | [] => none
  | p :: rest =>
    match splitAtLast? quote rest with
    | some (body, rest) => some (p :: body, rest)
    | none => if p = quote then some ([], rest) else none

/-- Splits at the closing quote: the first that does not follow a backslash, else the last. -/
def splitQuoted? (quote : CodePoint) (t : Text) : Option (Text × Text) :=
  (splitAtFree? quote false t).or (splitAtLast? quote t)

/-- Replaces what the escapes stand for; other backslashes stay. -/
def unescape (escapes : List (Char × Char)) : Text → Text
  | [] => []
  | [p] => [p]
  | p :: q :: rest =>
    match p, q with
    | .scalar '\\', .scalar c =>
      match escapes.lookup c with
      | some d => .scalar d :: unescape escapes rest
      | none => p :: unescape escapes (q :: rest)
    | _, _ => p :: unescape escapes (q :: rest)

/-- The escapes between single quotes. -/
def singleEscapes : List (Char × Char) := [('\\', '\\'), ('\'', '\'')]

/-- The escapes between double quotes. -/
def doubleEscapes : List (Char × Char) :=
  [('\\', '\\'), ('\'', '\''), ('"', '"'), ('a', '\x07'), ('b', '\x08'), ('f', '\x0c'),
    ('n', '\n'), ('r', '\r'), ('t', '\t'), ('v', '\x0b')]

/-- The part of a line before a comment that follows a blank. -/
def beforeComment : Text → Text
  | [] => []
  | p :: rest =>
    if Text.isBlank p && (rest.dropWhile Text.isBlank).head? == some (.scalar '#') then []
    else p :: beforeComment rest

/-- Takes a name; a comment has none. -/
def name? (t : Text) : Option (Option Text × Text) :=
  match t with
  | .scalar '#' :: _ => some (none, t)
  | .scalar '\'' :: rest =>
    let name := rest.takeWhile (· != .scalar '\'')
    match name, rest.drop name.length with
    | _ :: _, _ :: rest => some (some name, rest)
    | _, _ => none
  | _ =>
    let name := t.takeWhile fun p => p != .scalar '=' && p != .scalar '#' && !Text.isBlank p
    if name.isEmpty then none else some (some name, t.drop name.length)

/-- Takes a value, with the blanks before it: a `#` after a blank leaves it empty. -/
def value? (t : Text) : Option (Text × Text) :=
  match skipGap t with
  | .scalar '\'' :: rest =>
    (splitQuoted? (.scalar '\'') rest).map fun (body, rest) => (unescape singleEscapes body, rest)
  | .scalar '"' :: rest =>
    (splitQuoted? (.scalar '"') rest).map fun (body, rest) => (unescape doubleEscapes body, rest)
  | _ =>
    let line := t.takeWhile fun p => !isLineEnd p
    some (Text.trim Text.isBlank (beforeComment line), t.drop line.length)

/-- Takes the value that follows a name, if one does; else the text from the offending place on. -/
def valueAfter (t : Text) : Except Text (Option Text × Text) :=
  match t with
  | .scalar '=' :: rest =>
    match value? rest with
    | some (value, rest) => .ok (some value, rest)
    | none => .error (skipGap rest)
  | _ => .ok (none, t)

/-- Takes what a line binds, if it binds anything; else the text from the offending place on. -/
def line (t : Text) : Except Text (Option (Text × Option Text) × Text) :=
  let start := skipExport t
  match name? start with
  | none => .error start
  | some (name, rest) =>
    match valueAfter (skipGap rest) with
    | .error place => .error place
    | .ok (value, rest) =>
      match lineEnd? (skipComment rest) with
      | some rest => .ok (name.map fun n => (n, value), rest)
      | none => .error (skipComment rest)

/-- Takes what comes next, past blanks and line ends: a binding, if there is one. What cannot be
read is skipped up to the end of its line. -/
def next (t : Text) : Option (Text × Option Text) × Text :=
  match t.dropWhile Text.isBlank with
  | [] => (none, [])
  | start@(_ :: _) =>
    match line start with
    | .ok found => found
    | .error place => (none, skipLine place)

/-- The bindings of a file, in order. Reading ends where nothing more is taken. -/
def bindings (t : Text) : Bindings :=
  match _h : next t with
  | (found, rest) =>
    if _shorter : rest.length < t.length then found.toList ++ bindings rest else found.toList
termination_by t.length
decreasing_by exact _shorter

/-- The text of a file without the byte order mark that it may begin with. -/
def withoutMark : Text → Text
  | [] => []
  | p :: rest => if p = .ofNumber 0xFEFF then rest else p :: rest

/-- Line ends of all kinds as line feeds. -/
def unifyLineEnds : Text → Text
  | [] => []
  | [p] => if p = .scalar '\r' then [.scalar '\n'] else [p]
  | p :: q :: rest =>
    if p = .scalar '\r' then
      if q = .scalar '\n' then .scalar '\n' :: unifyLineEnds rest
      else .scalar '\n' :: unifyLineEnds (q :: rest)
    else p :: unifyLineEnds (q :: rest)

/-- Takes a reference after its opening brace: the name, and the text that stands in for it. -/
def reference? (t : Text) : Option ((Text × Text) × Text) :=
  let name := t.takeWhile fun p => p != .scalar '}' && p != .scalar ':'
  match t.drop name.length with
  | .scalar '}' :: rest => some ((name, []), rest)
  | .scalar ':' :: .scalar '-' :: rest =>
    let default := rest.takeWhile (· != .scalar '}')
    match rest.drop default.length with
    | _ :: rest => some ((name, default), rest)
    | [] => none
  | _ => none

theorem reference?_length {t rest : Text} {r : Text × Text} (h : reference? t = some (r, rest)) :
    rest.length < t.length := by
  have drop_length (u : Text) (n : Nat) : (u.drop n).length ≤ u.length := by
    rw [List.length_drop]; omega
  unfold reference? at h
  simp only at h
  split at h
  · next heq =>
    simp only [Option.some.injEq, Prod.mk.injEq] at h
    have hd := drop_length t (t.takeWhile fun p => p != .scalar '}' && p != .scalar ':').length
    rw [heq] at hd
    simp only [← h.2, List.length_cons] at *
    omega
  · next tail heq =>
    have hd := drop_length t (t.takeWhile fun p => p != .scalar '}' && p != .scalar ':').length
    rw [heq] at hd
    split at h
    · next heq' =>
      have hd' := drop_length tail (tail.takeWhile (· != .scalar '}')).length
      rw [heq'] at hd'
      simp only [Option.some.injEq, Prod.mk.injEq] at h
      simp only [← h.2, List.length_cons] at *
      omega
    · simp at h
  · simp at h

/-- Replaces the references of a value by what their names stand for. -/
def expand (resolve : Text → Text → Text) (t : Text) : Text :=
  match t with
  | [] => []
  | .scalar '$' :: .scalar '{' :: rest =>
    match _h : reference? rest with
    | some ((name, default), rest) => resolve name default ++ expand resolve rest
    | none => .scalar '$' :: expand resolve (.scalar '{' :: rest)
  | p :: rest => p :: expand resolve rest
termination_by t.length
decreasing_by
  · have := reference?_length _h
    simp only [List.length_cons]
    omega
  · simp
  · simp

/-- What a name stands for: its value in the file so far, else in the environment, else the text
that stands in for it. -/
def resolve (environment : Keyed Text) (before : Bindings) (name default : Text) : Text :=
  match before.get? name with
  | some value => value.getD []
  | none => (environment.get? name).getD default

/-- The values of a file. A name that is bound twice keeps its place and takes its last value. -/
def values (environment : Keyed Text) (t : Text) : Bindings :=
  (bindings (unifyLineEnds (withoutMark t))).foldl
    (fun before (name, value) =>
      before.insert name (value.map (expand (resolve environment before))))
    []

end EnvFile

end OscMonitor
