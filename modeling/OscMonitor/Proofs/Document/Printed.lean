import OscMonitor.Proofs.Document.Ascii
import OscMonitor.Proofs.Document.Complete
import OscMonitor.Proofs.Document.Scalars

/-!
# Documents that are read back

Printing a value and reading the text gives the value back: every value that can be read, with the
members of its objects in their order, and whatever gaps stand after commas and colons. The printed
text is followed token by token. Its tokens are those of the value, so it writes this value; and as
no name occurs twice in an object, nothing is put together when it is read.

* `Value.IsPrinted` — the tokens of a printed value, whatever follows.
* `Value.tokens_printItems`, `Value.tokens_printMembers` — those of what a container holds.
* `Value.writes_print` — every readable value whose texts are joined is written by what is printed.
* `Value.read_print` — so this reads as the value.
-/

namespace OscMonitor

open Lexeme

/-! ## Tokens of a printed text -/

namespace Lexeme

theorem scan_gaps {gaps : Text} (h : ∀ p ∈ gaps, isGap p = true) (t : Text) :
    scan (gaps ++ t) = scan t := by
  induction gaps with
  | nil => rfl
  | cons p gaps ih =>
    obtain ⟨hp, hGaps⟩ := List.forall_mem_cons.mp h
    rw [List.cons_append, scan, if_pos hp, ih hGaps]

theorem scans_comma (t : Text) : Scans [.scalar ','] .comma t := ⟨_, [], rfl, rfl, rfl⟩

theorem scans_colon (t : Text) : Scans [.scalar ':'] .colon t := ⟨_, [], rfl, rfl, rfl⟩

theorem scans_openList (t : Text) : Scans [.scalar '['] .openList t := ⟨_, [], rfl, rfl, rfl⟩

theorem scans_closeList (t : Text) : Scans [.scalar ']'] .closeList t := ⟨_, [], rfl, rfl, rfl⟩

theorem scans_openObject (t : Text) : Scans [.scalar '{'] .openObject t := ⟨_, [], rfl, rfl, rfl⟩

theorem scans_closeObject (t : Text) : Scans [.scalar '}'] .closeObject t := ⟨_, [], rfl, rfl, rfl⟩

theorem Scans.tokens {w : Text} {token : Token} {rest : Text} (h : Scans w token rest) :
    (Lexeme.scan (w ++ rest)).map Lexeme.token =
      token :: (Lexeme.scan rest).map Lexeme.token := by
  rw [h.scan, List.map_cons]

/-- A sign is a token, and the gaps after it are skipped. -/
theorem tokens_of_isSpaced {c : Char} {w : Text} (hSpaced : w.IsSpaced c) {token : Token}
    (hSign : ∀ t, Scans [.scalar c] token t) (rest : Text) :
    (scan (w ++ rest)).map Lexeme.token = token :: (scan rest).map Lexeme.token := by
  obtain ⟨gaps, rfl, hGaps⟩ := hSpaced
  have hTokens := (hSign (gaps ++ rest)).tokens
  rw [scan_gaps hGaps] at hTokens
  exact hTokens

end Lexeme

theorem Separators.IsPlain.stops {s : Separators} (h : s.IsPlain) (rest : Text) :
    Stops (Text.ofString s.item ++ rest) := by
  obtain ⟨gaps, hItem, -⟩ := h.item
  rintro p hp
  rw [hItem] at hp
  exact .inl (Option.some.inj hp).symm

theorem stops_close {p : CodePoint} (h : p = .scalar ']' ∨ p = .scalar '}') (rest : Text) :
    Stops (p :: rest) := by
  rintro q ⟨rfl⟩
  exact .inr h

theorem scanToken_quote {t r rest : Text}
    (h : scanText (.scalar '"' :: t) [] t = .ok (r, rest)) :
    scanToken (.scalar '"') t = (.text r, rest) := by
  simp only [scanToken, h]

theorem printText_eq (t : Text) :
    printText t = .scalar '"' :: (t.flatMap printPoint ++ [.scalar '"']) := rfl

/-- A printed text is a token. -/
theorem scans_printText {t : Text} (h : t.Joined) (rest : Text) :
    Scans (printText t) (.text t) rest := by
  refine ⟨_, _, printText_eq t, rfl, ?_⟩
  rw [List.append_assoc, List.singleton_append]
  exact scanToken_quote (scanText_print h _ [] rest)

/-! ## Values -/

/-- The tokens of a printed value are those of the value, and then come those of what follows, if
this does not go on with a number. -/
def Value.IsPrinted (s : Separators) (v : Value) : Prop :=
  ∀ rest : Text, Stops rest →
    (scan (v.print s ++ rest)).map Lexeme.token = v.tokens ++ (scan rest).map Lexeme.token

namespace Value

variable {s : Separators} {depth : Nat}

theorem isPrinted_of_scans {v : Value} {token : Token} (hToken : v.tokens = [token])
    (h : ∀ rest, Stops rest → Scans (v.print s) token rest) : v.IsPrinted s := by
  intro rest hRest
  rw [(h rest hRest).tokens, hToken, List.singleton_append]

/-- The items of a list, one after the other, up to the closing bracket. -/
theorem tokens_printItems (hPlain : s.IsPlain) {v : Value} {items : List Value}
    (hItems : ∀ w ∈ v :: items, w.IsPrinted s) (rest : Text) :
    (scan (printItems s (v :: items) ++ .scalar ']' :: rest)).map Lexeme.token =
      v.tokens ++ (itemTokens items ++ (scan rest).map Lexeme.token) := by
  -- induction on the items that follow
  induction items generalizing v with
  | nil =>
    rw [printItems, hItems v List.mem_cons_self _ (stops_close (.inl rfl) rest)]
    exact congrArg (v.tokens ++ ·) (scans_closeList rest).tokens
  | cons w items ih =>
    have hOthers := ih fun u hu => hItems u (List.mem_cons_of_mem _ hu)
    rw [printItems, Text.append_string, List.append_assoc, List.append_assoc,
      hItems v List.mem_cons_self _ (hPlain.stops _), tokens_of_isSpaced hPlain.item scans_comma,
      hOthers, itemTokens, List.cons_append, List.append_assoc]

/-- One member: its name, a colon and its value. -/
theorem tokens_printMember (hPlain : s.IsPlain) {m : Text × Value} (hName : m.1.Joined)
    (hv : m.2.IsPrinted s) {rest : Text} (hRest : Stops rest) :
    (scan (printText m.1 ++ (Text.ofString s.key ++ (m.2.print s ++ rest)))).map Lexeme.token =
      .text m.1 :: .colon :: (m.2.tokens ++ (scan rest).map Lexeme.token) := by
  rw [(scans_printText hName _).tokens, tokens_of_isSpaced hPlain.key scans_colon, hv rest hRest]

/-- The members of an object, one after the other, up to the closing bracket. -/
theorem tokens_printMembers (hPlain : s.IsPlain) {m : Text × Value} {members : Object}
    (hNames : ∀ n ∈ m :: members, n.1.Joined) (hMembers : ∀ n ∈ m :: members, n.2.IsPrinted s)
    (rest : Text) :
    (scan (printMembers s (m :: members) ++ .scalar '}' :: rest)).map Lexeme.token =
      .text m.1 :: .colon ::
        (m.2.tokens ++ (memberTokens members ++ (scan rest).map Lexeme.token)) := by
  -- induction on the members that follow
  induction members generalizing m with
  | nil =>
    have hMember := tokens_printMember hPlain (hNames m List.mem_cons_self)
      (hMembers m List.mem_cons_self) (stops_close (.inr rfl) rest)
    rw [printMembers, Text.append_string, List.append_assoc, List.append_assoc, hMember]
    exact congrArg (fun tokens => .text m.1 :: .colon :: (m.2.tokens ++ tokens))
      (scans_closeObject rest).tokens
  | cons n members ih =>
    have hMember := tokens_printMember hPlain (hNames m List.mem_cons_self)
      (hMembers m List.mem_cons_self)
      (hPlain.stops (printMembers s (n :: members) ++ .scalar '}' :: rest))
    have hOthers := ih (fun k hk => hNames k (List.mem_cons_of_mem _ hk))
      (fun k hk => hMembers k (List.mem_cons_of_mem _ hk))
    rw [printMembers, Text.append_string, Text.append_string, List.append_assoc, List.append_assoc,
      List.append_assoc, List.append_assoc, hMember, tokens_of_isSpaced hPlain.item scans_comma,
      hOthers, memberTokens, List.cons_append, List.cons_append, List.cons_append,
      List.append_assoc]

theorem print_list_append (s : Separators) (items : List Value) (rest : Text) :
    (list items).print s ++ rest =
      .scalar '[' :: (printItems s items ++ .scalar ']' :: rest) := by
  rw [print, Text.append_string, List.append_assoc, List.append_assoc]
  rfl

theorem print_object_append (s : Separators) (members : Object) (rest : Text) :
    (object members).print s ++ rest =
      .scalar '{' :: (printMembers s members ++ .scalar '}' :: rest) := by
  rw [print, Text.append_string, List.append_assoc, List.append_assoc]
  rfl

/-- The tokens of what is printed are those of the value, if it is readable and its texts are
joined. -/
theorem isPrinted_of_readable (hPlain : s.IsPlain) {v : Value} (h : v.Readable Text.Joined depth) :
    v.IsPrinted s := by
  induction h with
  | null => exact isPrinted_of_scans rfl fun _ _ => ⟨_, _, rfl, rfl, rfl⟩
  | @bool _ b =>
    cases b with
    | false => exact isPrinted_of_scans rfl fun _ _ => ⟨_, _, rfl, rfl, rfl⟩
    | true => exact isPrinted_of_scans rfl fun _ _ => ⟨_, _, rfl, rfl, rfl⟩
  | @int _ n h =>
    refine isPrinted_of_scans rfl fun rest hRest => ?_
    have hScans := scans_ofInt n hRest
    rwa [if_pos h] at hScans
  | float => exact isPrinted_of_scans rfl fun _ hRest => scans_printDouble _ hRest
  | text h => exact isPrinted_of_scans rfl fun rest _ => scans_printText h rest
  | @list _ items _ ih =>
    intro rest _
    have hOpen := (scans_openList (printItems s items ++ .scalar ']' :: rest)).tokens
    rw [List.singleton_append] at hOpen
    rw [print_list_append, hOpen, tokens, List.cons_append]
    cases items with
    | nil => exact congrArg (Token.openList :: ·) (scans_closeList rest).tokens
    | cons v items => rw [tokens_printItems hPlain ih rest, listTokens, List.append_assoc]
  | @object _ members _ hNames _ ih =>
    intro rest _
    have hOpen := (scans_openObject (printMembers s members ++ .scalar '}' :: rest)).tokens
    rw [List.singleton_append] at hOpen
    rw [print_object_append, hOpen, tokens, List.cons_append]
    cases members with
    | nil => exact congrArg (Token.openObject :: ·) (scans_closeObject rest).tokens
    | cons m members =>
      rw [tokens_printMembers hPlain hNames ih rest, objectTokens, List.cons_append,
        List.cons_append, List.append_assoc]

/-- What is printed of a readable value whose texts are joined writes the value. -/
theorem writes_print (hPlain : s.IsPlain) {v : Value} (h : v.Readable Text.Joined depth) :
    (v.print s).Writes v := by
  have hTokens := isPrinted_of_readable hPlain h [] stops_nil
  rwa [List.append_nil, scan, List.map_nil, List.append_nil] at hTokens

/-- What is printed of a readable value whose texts are joined reads as the value. -/
theorem read_print (hPlain : s.IsPlain) {v : Value}
    (h : v.Readable Text.Joined Reader.depthLimit) : read (v.print s) = .ok v := by
  have hRead := read_of_writes (writes_print hPlain h) h.height_le
  rwa [merged_of_readable h] at hRead

end Value

end OscMonitor
