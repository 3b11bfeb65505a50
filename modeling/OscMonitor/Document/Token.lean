import OscMonitor.Document.Value
import OscMonitor.Number.Numeral

/-!
# Tokens of a document

The pieces of JSON text: brackets, separators, scalars and texts, with the blanks between them
skipped. A piece that cannot be read is a token too, since what is wrong with it only matters
where a value may stand.

* `Lexeme.rest` is the text from a token's first code point on, which gives its position.
* `Lexeme.scan` is the whole text as lexemes; each consumes at least one code point.
-/

namespace OscMonitor

/-- What is wrong with a text as a document. -/
inductive SyntaxCause where
  | expectingValue
  | expectingName
  | expectingColon
  | expectingComma
  | extraData
  | unterminatedText
  | controlCharacter
  | badEscape
  | badUnicodeEscape
  | byteOrderMark
  deriving DecidableEq, Repr

/-- Why a text is refused as a document. -/
inductive ReadFault where
  -- The text is malformed; `rest` is what remains of it from the offending place on.
  | malformed (cause : SyntaxCause) (rest : Text)
  -- An integer with more digits than are read.
  | tooManyDigits (digits : Nat)
  -- Brackets nested too deeply; the innermost opens an object or a list.
  | tooDeep (object : Bool)
  deriving DecidableEq, Repr

/-- A piece of JSON text. -/
inductive Token where
  | openList
  | closeList
  | openObject
  | closeObject
  | comma
  | colon
  | text (t : Text)
  | scalar (v : Value)
  -- A text that cannot be read.
  | badText (fault : ReadFault)
  -- Anything else that cannot be read.
  | badScalar (fault : ReadFault)
  deriving Repr

/-- A token where it stands: `rest` is the text from its first code point on. -/
structure Lexeme where
  token : Token
  rest : Text
  deriving Repr

namespace Lexeme

/-- The four blanks between tokens. -/
def isGap (p : CodePoint) : Bool :=
  p == .scalar ' ' || p == .scalar '\t' || p == .scalar '\n' || p == .scalar '\r'

/-- The value of four hexadecimal digits. -/
def hexQuad? (a b c d : CodePoint) : Option Nat := do
  return (((← a.hexDigit?) * 16 + (← b.hexDigit?)) * 16 + (← c.hexDigit?)) * 16 + (← d.hexDigit?)

/-- The code point of a surrogate pair. -/
def joinHalves (high low : Nat) : CodePoint :=
  .ofNumber (0x10000 + (high - 0xD800) * 0x400 + (low - 0xDC00))

/-- Reads the low half of a surrogate pair, spelled as an escape after which the text goes on. -/
def lowHalf? : Text → Option (Nat × Text)
  | .scalar '\\' :: .scalar 'u' :: a :: b :: c :: d :: p :: rest => do
    let n ← hexQuad? a b c d
    if 0xDC00 ≤ n ∧ n < 0xE000 then some (n, p :: rest) else none
  | _ => none

/-- Reads the four digits of an escape, after which the text goes on. A high half takes the low
half that follows it. -/
def unicodeEscape : Text → Except ReadFault (CodePoint × Text)
  | a :: b :: c :: d :: p :: rest =>
    match hexQuad? a b c d with
    | none => .error (.malformed .badUnicodeEscape (.scalar 'u' :: a :: b :: c :: d :: p :: rest))
    | some n =>
      if 0xD800 ≤ n ∧ n < 0xDC00 then
        match lowHalf? (p :: rest) with
        | some (low, rest) => .ok (joinHalves n low, rest)
        | none => .ok (.ofNumber n, p :: rest)
      else .ok (.ofNumber n, p :: rest)
  | digits => .error (.malformed .badUnicodeEscape (.scalar 'u' :: digits))

/-- What a one-letter escape stands for. -/
def simpleEscape? : CodePoint → Option Char
  | .scalar '"' => some '"'
  | .scalar '\\' => some '\\'
  | .scalar '/' => some '/'
  | .scalar 'b' => some '\x08'
  | .scalar 'f' => some '\x0c'
  | .scalar 'n' => some '\n'
  | .scalar 'r' => some '\r'
  | .scalar 't' => some '\t'
  | _ => none

/-- Reads what follows a backslash: `p` and then `rest`. -/
def escape (p : CodePoint) (rest : Text) : Except ReadFault (CodePoint × Text) :=
  if p = .scalar 'u' then unicodeEscape rest
  else
    match simpleEscape? p with
    | some c => .ok (.scalar c, rest)
    | none => .error (.malformed .badEscape (.scalar '\\' :: p :: rest))

theorem lowHalf?_length {t rest : Text} {n : Nat} (h : lowHalf? t = some (n, rest)) :
    rest.length ≤ t.length := by
  unfold lowHalf? at h
  split at h
  · simp only [Option.bind_eq_bind, Option.bind_eq_some_iff, Option.ite_none_right_eq_some] at h
    obtain ⟨_, _, _, h⟩ := h
    simp only [Option.some.injEq, Prod.mk.injEq] at h
    simp only [← h.2, List.length_cons]
    omega
  · simp at h

theorem unicodeEscape_length {t rest : Text} {p : CodePoint}
    (h : unicodeEscape t = .ok (p, rest)) : rest.length ≤ t.length := by
  unfold unicodeEscape at h
  split at h
  · split at h
    · simp at h
    · split at h
      · split at h
        · next hlow =>
          have := lowHalf?_length hlow
          simp only [Except.ok.injEq, Prod.mk.injEq] at h
          simp only [← h.2, List.length_cons] at *
          omega
        · simp only [Except.ok.injEq, Prod.mk.injEq] at h
          simp only [← h.2, List.length_cons]
          omega
      · simp only [Except.ok.injEq, Prod.mk.injEq] at h
        simp only [← h.2, List.length_cons]
        omega
  · simp at h

theorem escape_length {p q : CodePoint} {rest rest' : Text}
    (h : escape p rest = .ok (q, rest')) : rest'.length ≤ rest.length := by
  unfold escape at h
  split at h
  · exact unicodeEscape_length h
  · split at h
    · simp only [Except.ok.injEq, Prod.mk.injEq] at h
      simp [← h.2]
    · simp at h

/-- Reads a text after its opening quote, up to its closing one. The text from the opening quote on
is `start`, and `read` is what has been read so far, in reverse. -/
def scanText (start read : Text) : Text → Except ReadFault (Text × Text)
  | [] => .error (.malformed .unterminatedText start)
  | p :: rest =>
    if p = .scalar '"' then .ok (read.reverse, rest)
    else if p = .scalar '\\' then
      match rest with
      | [] => .error (.malformed .unterminatedText start)
      | p :: rest =>
        match _h : escape p rest with
        | .ok (q, rest) => scanText start (q :: read) rest
        | .error fault => .error fault
    else if p.number < 0x20 then .error (.malformed .controlCharacter (p :: rest))
    else scanText start (p :: read) rest
termination_by t => t.length
decreasing_by
  · have := escape_length _h
    simp only [List.length_cons]
    omega
  · simp

/-- Splits off the whole part of a number: a zero, or digits of which the first is none. -/
def splitWhole? (t : Text) : Option (Text × Text) :=
  match t with
  | .scalar '0' :: rest => some ([.scalar '0'], rest)
  | _ =>
    match Numeral.splitDigits t with
    | ([], _) => none
    | (digits, rest) => some (digits, rest)

/-- Splits off the digits after a point, if there are any. -/
def splitFraction (t : Text) : Text × Text :=
  match t with
  | .scalar '.' :: rest =>
    match Numeral.splitDigits rest with
    | ([], _) => ([], t)
    | (digits, rest) => (digits, rest)
  | _ => ([], t)

/-- Reads the digits of a number. It is an integer when it has neither a fraction nor an
exponent. -/
def scanNumber? (negative : Bool) (t : Text) : Option (Token × Text) := do
  let (whole, rest) ← splitWhole? t
  let (fraction, rest) := splitFraction rest
  match fraction, Numeral.splitExponent? rest with
  | [], none =>
    if Numeral.digitLimit < whole.length then some (.badScalar (.tooManyDigits whole.length), rest)
    else some (.scalar (.int (Numeral.signed negative (Text.digitsValue whole))), rest)
  | _, none =>
    some (.scalar (.float (Double.ofDecimal negative (Numeral.decimal whole fraction 0))), rest)
  | _, some (exponent, rest) =>
    some (.scalar (.float (Double.ofDecimal negative (Numeral.decimal whole fraction exponent))),
      rest)

def words : List (Text × Value) :=
  [("null", .null), ("true", .bool true), ("false", .bool false), ("NaN", .float .nan),
    ("Infinity", .float (.infinite false)), ("-Infinity", .float (.infinite true))]

/-- Reads one of the words. -/
def scanWord? (t : Text) : Option (Token × Text) :=
  words.findSome? fun (word, v) =>
    if word.isPrefixOf t then some (.scalar v, t.drop word.length) else none

/-- Reads a word or a number. -/
def scanScalar? (t : Text) : Option (Token × Text) :=
  match scanWord? t with
  | some found => some found
  | none =>
    match t with
    | .scalar '-' :: rest => scanNumber? true rest
    | _ => scanNumber? false t

/-- Reads the token that begins with `p`; nothing is read after one that cannot be read. -/
def scanToken (p : CodePoint) (rest : Text) : Token × Text :=
  match p with
  | .scalar '[' => (.openList, rest)
  | .scalar ']' => (.closeList, rest)
  | .scalar '{' => (.openObject, rest)
  | .scalar '}' => (.closeObject, rest)
  | .scalar ',' => (.comma, rest)
  | .scalar ':' => (.colon, rest)
  | .scalar '"' =>
    match scanText (p :: rest) [] rest with
    | .ok (t, rest) => (.text t, rest)
    | .error fault => (.badText fault, [])
  | _ =>
    match scanScalar? (p :: rest) with
    | some found => found
    | none => (.badScalar (.malformed .expectingValue (p :: rest)), [])

/-! ## A token is not empty -/

theorem scanText_length {start read t r rest : Text} (h : scanText start read t = .ok (r, rest)) :
    rest.length ≤ t.length := by
  fun_induction scanText start read t with
  | case1 => simp at h
  | case2 =>
    simp only [Except.ok.injEq, Prod.mk.injEq] at h
    simp [← h.2]
  | case3 => simp at h
  | case4 _ _ _ _ _ hescape _ ih =>
    have := ih h
    have := escape_length hescape
    simp only [List.length_cons]
    omega
  | case5 => simp at h
  | case6 => simp at h
  | case7 _ _ _ _ _ _ ih =>
    have := ih h
    simp only [List.length_cons]
    omega

theorem splitDigits_length (t : Text) : (Numeral.splitDigits t).2.length ≤ t.length :=
  (List.dropWhile_sublist _).length_le

theorem splitDigits_append (t : Text) :
    (Numeral.splitDigits t).1 ++ (Numeral.splitDigits t).2 = t := List.takeWhile_append_dropWhile

theorem splitSign_length (t : Text) : (Numeral.splitSign t).2.length ≤ t.length := by
  unfold Numeral.splitSign
  split <;> simp

theorem splitExponent?_length {t rest : Text} {e : Int}
    (h : Numeral.splitExponent? t = some (e, rest)) : rest.length ≤ t.length := by
  unfold Numeral.splitExponent? at h
  split at h
  · next c tail =>
    split at h
    · have hs := splitSign_length tail
      have hd := splitDigits_length (Numeral.splitSign tail).2
      simp only at h
      split at h
      · simp at h
      · next heq =>
        rw [heq] at hd
        simp only [Option.some.injEq, Prod.mk.injEq] at h
        simp only [← h.2, List.length_cons] at *
        omega
    · simp at h
  · simp at h

theorem splitWhole?_length {t whole rest : Text} (h : splitWhole? t = some (whole, rest)) :
    rest.length < t.length := by
  unfold splitWhole? at h
  split at h
  · simp only [Option.some.injEq, Prod.mk.injEq] at h
    simp [← h.2]
  · have happ := splitDigits_append t
    split at h
    · simp at h
    · next digits tail hne heq =>
      rw [heq] at happ
      simp only [Option.some.injEq, Prod.mk.injEq] at h
      have hd := List.length_pos_iff.mpr (show digits ≠ [] from hne)
      simp only [← happ, ← h.2, List.length_append]
      omega

theorem splitFraction_length (t : Text) : (splitFraction t).2.length ≤ t.length := by
  unfold splitFraction
  split
  · next rest =>
    have hd := splitDigits_length rest
    split
    · simp
    · next heq =>
      rw [heq] at hd
      simp only [List.length_cons] at *
      omega
  · simp

theorem scanNumber?_length {negative : Bool} {t rest : Text} {token : Token}
    (h : scanNumber? negative t = some (token, rest)) : rest.length < t.length := by
  unfold scanNumber? at h
  simp only [Option.bind_eq_bind, Option.bind_eq_some_iff] at h
  obtain ⟨⟨whole, tail⟩, hw, h⟩ := h
  have hwl := splitWhole?_length hw
  have hf := splitFraction_length tail
  simp only at h
  split at h
  · split at h <;> (simp only [Option.some.injEq, Prod.mk.injEq] at h; rw [← h.2]; omega)
  · simp only [Option.some.injEq, Prod.mk.injEq] at h
    rw [← h.2]
    omega
  · next he =>
    have := splitExponent?_length he
    simp only [Option.some.injEq, Prod.mk.injEq] at h
    rw [← h.2]
    omega

theorem scanWord?_length {t rest : Text} {token : Token} (h : scanWord? t = some (token, rest)) :
    rest.length < t.length := by
  unfold scanWord? at h
  obtain ⟨⟨word, v⟩, hmem, h⟩ := List.exists_of_findSome?_eq_some h
  simp only [Option.ite_none_right_eq_some, Option.some.injEq, Prod.mk.injEq] at h
  obtain ⟨hstart, _, rfl⟩ := h
  have hlen := (List.isPrefixOf_iff_prefix.mp hstart).length_le
  have hpos : 0 < word.length := by
    have hall : ∀ w ∈ words, 0 < w.1.length := by decide
    exact hall _ hmem
  rw [List.length_drop]
  omega

theorem scanScalar?_length {t rest : Text} {token : Token}
    (h : scanScalar? t = some (token, rest)) : rest.length < t.length := by
  unfold scanScalar? at h
  split at h
  · next heq =>
    simp only [Option.some.injEq] at h
    exact scanWord?_length (h ▸ heq)
  · split at h
    · have := scanNumber?_length h
      simp only [List.length_cons]
      omega
    · exact scanNumber?_length h

/-- A token takes at least its first code point. -/
theorem scanToken_length (p : CodePoint) (rest : Text) :
    (scanToken p rest).2.length ≤ rest.length := by
  unfold scanToken
  split <;> try exact Nat.le_refl _
  · split
    · next h => exact scanText_length h
    · simp
  · split
    · next found h =>
      have : found.2.length < (p :: rest).length := scanScalar?_length h
      simp only [List.length_cons] at this
      omega
    · simp

/-- The tokens of a text, with the gaps between them skipped. -/
def scan : Text → List Lexeme
  | [] => []
  | p :: rest =>
    if isGap p then scan rest
    else
      let found := scanToken p rest
      ⟨found.1, p :: rest⟩ :: scan found.2
termination_by t => t.length
decreasing_by
  · simp
  · have := scanToken_length p rest
    simp only [List.length_cons]
    omega

end Lexeme

end OscMonitor
