import OscMonitor.Proofs.Document.Depth
import OscMonitor.Proofs.Number.Digits
import OscMonitor.Proofs.Text.Keyed

/-!
# Values that can be read

What the reader can make of a text: an integer has no more digits than are read, an object no two
members of one name, and containers nest no more deeply than the brackets of the text. Whatever
holds of every text between quotes holds of every text within the value, names included.

* `Value.Readable` — the values that can be read, by the depth of containers that is left.
* `Reader.State.step_readable` — a step keeps what is being read readable.
* `Value.readable_of_read` — and so is every value that was read.
-/

namespace OscMonitor

/-- The values that can be read from quoted texts of which `P` holds, with containers nested at most
`depth` deep. -/
inductive Value.Readable (P : Text → Prop) : Nat → Value → Prop
  | null {depth : Nat} : Value.null.Readable P depth
  | bool {depth : Nat} {b : Bool} : (Value.bool b).Readable P depth
  | int {depth : Nat} {n : Int} (h : decimalLength n.natAbs ≤ Numeral.digitLimit) :
      (Value.int n).Readable P depth
  | float {depth : Nat} {x : Double} : (Value.float x).Readable P depth
  | text {depth : Nat} {t : Text} (h : P t) : (Value.text t).Readable P depth
  | list {depth : Nat} {items : List Value} (h : ∀ v ∈ items, v.Readable P depth) :
      (Value.list items).Readable P (depth + 1)
  | object {depth : Nat} {members : Object} (hKeys : members.keys.Nodup)
      (hNames : ∀ m ∈ members, P m.1) (h : ∀ m ∈ members, m.2.Readable P depth) :
      (Value.object members).Readable P (depth + 1)

namespace Value

variable {P Q : Text → Prop} {depth : Nat}

theorem readable_int_iff {n : Int} :
    (int n).Readable P depth ↔ decimalLength n.natAbs ≤ Numeral.digitLimit := by
  refine ⟨fun h => ?_, .int⟩
  cases h with
  | int h => exact h

theorem readable_object_iff {o : Object} :
    (object o).Readable P depth ↔ ∃ room, depth = room + 1 ∧ o.keys.Nodup ∧
      (∀ m ∈ o, P m.1) ∧ ∀ m ∈ o, m.2.Readable P room := by
  constructor
  · intro h
    cases h with
    | object hKeys hNames h => exact ⟨_, rfl, hKeys, hNames, h⟩
  · rintro ⟨room, rfl, hKeys, hNames, h⟩
    exact .object hKeys hNames h

/-- More room and less to ask of texts leave a value readable. -/
theorem Readable.mono {v : Value} (h : v.Readable P depth) {depth' : Nat} (hLe : depth ≤ depth')
    (hText : ∀ t, P t → Q t) : v.Readable Q depth' := by
  induction h generalizing depth' with
  | null => exact .null
  | bool => exact .bool
  | int h => exact .int h
  | float => exact .float
  | text h => exact .text (hText _ h)
  | list _ ih =>
    obtain ⟨room, rfl⟩ := Nat.exists_eq_add_of_lt hLe
    exact .list fun v hv => ih v hv (Nat.le_add_right _ _)
  | object hKeys hNames _ ih =>
    obtain ⟨room, rfl⟩ := Nat.exists_eq_add_of_lt hLe
    exact .object hKeys (fun m hm => hText _ (hNames m hm))
      fun m hm => ih m hm (Nat.le_add_right _ _)

end Value

namespace Reader

/-- The members of an object that is being read, with so much room for containers. -/
structure MembersReadable (P : Text → Prop) (room : Nat) (o : Object) : Prop where
  keys : o.keys.Nodup
  names : ∀ m ∈ o, P m.1
  values : ∀ m ∈ o, m.2.Readable P room

namespace MembersReadable

variable {P : Text → Prop} {room : Nat} {o : Object}

theorem nil : MembersReadable P room [] := ⟨List.nodup_nil, nofun, nofun⟩

/-- A further member takes the place of one of the same name. -/
theorem insert (h : MembersReadable P room o) {key : Text} {v : Value} (hKey : P key)
    (hv : v.Readable P room) : MembersReadable P room (o.insert key v) where
  keys := Keyed.nodup_keys_insert h.keys key v
  names m hm := by
    rcases Keyed.mem_insert hm with rfl | hm
    · exact hKey
    · exact h.names m hm
  values m hm := by
    rcases Keyed.mem_insert hm with rfl | hm
    · exact hv
    · exact h.values m hm

end MembersReadable

/-- What an open container holds so far, with so much room for containers within it. -/
def Frame.Readable (P : Text → Prop) (room : Nat) : Frame → Prop
  | list before => ∀ v ∈ before, v.Readable P room
  | object before key => MembersReadable P room before ∧ P key

/-- The open containers, each within the ones after it. -/
def FramesReadable (P : Text → Prop) (limit : Nat) : List Frame → Prop
  | [] => True
  | f :: frames =>
    f.Readable P (limit - (frames.length + 1)) ∧ frames.length < limit ∧
      FramesReadable P limit frames

namespace State

/-- What is being read is readable, with containers nested at most `limit` deep. -/
def Readable (P : Text → Prop) (limit : Nat) : State → Prop
  | value frames => FramesReadable P limit frames
  | firstItem frames | firstName frames => frames.length < limit ∧ FramesReadable P limit frames
  | name before frames =>
    MembersReadable P (limit - (frames.length + 1)) before ∧ frames.length < limit ∧
      FramesReadable P limit frames
  | colon before key frames => FramesReadable P limit (.object before key :: frames)
  | after v frames => v.Readable P (limit - frames.length) ∧ FramesReadable P limit frames

/-- What is asked of a token: that `P` holds of its text, and that its scalar can be read. -/
def TokenReadable (P : Text → Prop) : Token → Prop
  | .text t => P t
  | .scalar v => v.Readable P 0
  | _ => True

variable {P : Text → Prop} {limit : Nat} {s s' : State} {l : Lexeme}

theorem takeValue_readable {frames : List Frame} (hToken : TokenReadable P l.token)
    (hFrames : FramesReadable P limit frames) (h : takeValue frames l = .ok s)
    (hDepth : s.depth ≤ limit) : s.Readable P limit := by
  unfold takeValue at h
  split at h
  case h_1 v hScalar =>
    obtain rfl := Except.ok.inj h
    rw [hScalar] at hToken
    exact ⟨hToken.mono (Nat.zero_le _) fun _ h => h, hFrames⟩
  case h_2 t hText =>
    obtain rfl := Except.ok.inj h
    rw [hText] at hToken
    exact ⟨.text hToken, hFrames⟩
  case h_3 | h_4 =>
    split at h
    · cases h
    · obtain rfl := Except.ok.inj h
      exact ⟨hDepth, hFrames⟩
  all_goals cases h

theorem takeName_readable {before : Object} {frames : List Frame}
    (hToken : TokenReadable P l.token)
    (hBefore : MembersReadable P (limit - (frames.length + 1)) before)
    (hLimit : frames.length < limit) (hFrames : FramesReadable P limit frames)
    (h : takeName before frames l = .ok s) : s.Readable P limit := by
  unfold takeName at h
  split at h
  · next key hText =>
    obtain rfl := Except.ok.inj h
    rw [hText] at hToken
    exact ⟨⟨hBefore, hToken⟩, hLimit, hFrames⟩
  all_goals cases h

/-- A step keeps what is being read readable. -/
theorem step_readable (hToken : TokenReadable P l.token) (hs : s.Readable P limit)
    (h : s.step l = .ok s') (hDepth : s'.depth ≤ limit) : s'.Readable P limit := by
  -- a container that is complete takes one level of the room that is left around it
  have hRoom : ∀ {frames : List Frame}, frames.length < limit →
      limit - frames.length = limit - (frames.length + 1) + 1 := by
    intro frames hLimit
    omega
  unfold step at h
  split at h
  case h_1 => exact takeValue_readable hToken hs h hDepth
  case h_3 =>
    have hFrames : FramesReadable P limit (.list [] :: _) := ⟨nofun, hs⟩
    exact takeValue_readable hToken hFrames h hDepth
  case h_5 => exact takeName_readable hToken .nil hs.1 hs.2 h
  case h_6 => exact takeName_readable hToken hs.1 hs.2.1 hs.2.2 h
  case h_12 => cases h
  case h_2 =>
    obtain rfl := Except.ok.inj h
    refine ⟨?_, hs.2⟩
    rw [hRoom hs.1]
    exact .list nofun
  case h_4 =>
    obtain rfl := Except.ok.inj h
    refine ⟨?_, hs.2⟩
    rw [hRoom hs.1]
    exact .object List.nodup_nil nofun nofun
  case h_7 =>
    obtain rfl := Except.ok.inj h
    exact hs
  case h_8 v before frames _ =>
    obtain rfl := Except.ok.inj h
    obtain ⟨hv, hBefore, hFrames⟩ := hs
    exact ⟨List.forall_mem_cons.mpr ⟨hv, hBefore⟩, hFrames⟩
  case h_9 v before frames _ =>
    obtain rfl := Except.ok.inj h
    obtain ⟨hv, hBefore, hLimit, hFrames⟩ := hs
    have hItems : ∀ w ∈ v :: before, w.Readable P (limit - (frames.length + 1)) :=
      List.forall_mem_cons.mpr ⟨hv, hBefore⟩
    refine ⟨?_, hFrames⟩
    rw [hRoom hLimit]
    exact .list fun w hw => hItems w (List.mem_reverse.mp hw)
  case h_10 v before key frames _ =>
    obtain rfl := Except.ok.inj h
    obtain ⟨hv, ⟨hBefore, hKey⟩, hLimit, hFrames⟩ := hs
    exact ⟨hBefore.insert hKey hv, hLimit, hFrames⟩
  case h_11 v before key frames _ =>
    obtain rfl := Except.ok.inj h
    obtain ⟨hv, ⟨hBefore, hKey⟩, hLimit, hFrames⟩ := hs
    have hMembers := hBefore.insert hKey hv
    refine ⟨?_, hFrames⟩
    rw [hRoom hLimit]
    exact .object hMembers.keys hMembers.names hMembers.values

end State

end Reader

/-! ## What is scanned -/

namespace Lexeme

variable {P : Text → Prop}

theorem splitWhole?_ne_nil {t whole rest : Text} (h : splitWhole? t = some (whole, rest)) :
    whole ≠ [] := by
  unfold splitWhole? at h
  split at h
  · obtain ⟨rfl, -⟩ := Prod.mk.inj (Option.some.inj h)
    exact List.cons_ne_nil _ _
  · split at h
    · cases h
    · next hNonempty _ =>
      obtain ⟨rfl, -⟩ := Prod.mk.inj (Option.some.inj h)
      exact hNonempty

theorem scanNumber?_readable {negative : Bool} {t rest : Text} {v : Value}
    (h : scanNumber? negative t = some (.scalar v, rest)) : v.Readable P 0 := by
  unfold scanNumber? at h
  simp only [Option.bind_eq_bind, Option.bind_eq_some_iff] at h
  obtain ⟨⟨whole, tail⟩, hWhole, h⟩ := h
  dsimp only at h
  split at h
  · -- an integer has no more digits than its spelling
    split at h
    · cases h
    · next hLimit =>
      obtain ⟨hToken, -⟩ := Prod.mk.inj (Option.some.inj h)
      obtain rfl := Token.scalar.inj hToken
      have hDigits : (Numeral.signed negative (Text.digitsValue whole)).natAbs =
          Text.digitsValue whole := by
        cases negative <;> simp [Numeral.signed]
      refine .int ?_
      rw [hDigits]
      exact (decimalLength_digitsValue_le (splitWhole?_ne_nil hWhole)).trans
        (Nat.le_of_not_lt hLimit)
  all_goals
    obtain ⟨hToken, -⟩ := Prod.mk.inj (Option.some.inj h)
    obtain rfl := Token.scalar.inj hToken
    exact .float

theorem scanWord?_readable {t rest : Text} {v : Value}
    (h : scanWord? t = some (.scalar v, rest)) : v.Readable P 0 := by
  unfold scanWord? at h
  obtain ⟨⟨word, w⟩, hMem, h⟩ := List.exists_of_findSome?_eq_some h
  simp only [Option.ite_none_right_eq_some, Option.some.injEq, Prod.mk.injEq,
    Token.scalar.injEq] at h
  obtain ⟨-, rfl, -⟩ := h
  have hWords : ∀ m ∈ words, m.2.Readable P 0 := by
    simp only [words, List.forall_mem_cons]
    exact ⟨.null, .bool, .bool, .float, .float, .float, List.forall_mem_nil _⟩
  exact hWords _ hMem

theorem scanScalar?_readable {t rest : Text} {v : Value}
    (h : scanScalar? t = some (.scalar v, rest)) : v.Readable P 0 := by
  unfold scanScalar? at h
  split at h
  · next hWord =>
    obtain rfl := Option.some.inj h
    exact scanWord?_readable hWord
  · split at h <;> exact scanNumber?_readable h

/-- A token that can be read is readable, if what is asked of texts holds of the scanned ones. -/
theorem scanToken_readable {p : CodePoint} {t rest : Text} {token : Token}
    (hText : ∀ start r, scanText start [] t = .ok (r, rest) → P r)
    (h : scanToken p t = (token, rest)) : Reader.State.TokenReadable P token := by
  unfold scanToken at h
  split at h
  case h_7 =>
    split at h
    · next r tail hScan =>
      obtain ⟨rfl, rfl⟩ := Prod.mk.inj h
      exact hText _ r hScan
    · obtain ⟨rfl, -⟩ := Prod.mk.inj h
      trivial
  case h_8 =>
    split at h
    · next found hFound =>
      subst h
      cases token with
      | scalar v => exact scanScalar?_readable hFound
      | text r =>
        -- no scalar is a text
        obtain ⟨-, ⟨v, hScalar, -⟩ | ⟨fault, hBad⟩⟩ := scanScalar?_token hFound
        · cases hScalar
        · cases hBad
      | _ => trivial
    · obtain ⟨rfl, -⟩ := Prod.mk.inj h
      trivial
  all_goals
    obtain ⟨rfl, -⟩ := Prod.mk.inj h
    trivial

end Lexeme

/-! ## What is read -/

variable {P : Text → Prop} {S : CodePoint → Prop} {limit : Nat}

/-- What is read after something readable is readable. -/
theorem Reader.State.readable_of_run_scan
    (hText : ∀ start t r rest, (∀ p ∈ t, S p) → Lexeme.scanText start [] t = .ok (r, rest) → P r)
    {s : State} {t : Text} {v : Value} (ht : ∀ p ∈ t, S p) (hs : s.Readable P limit)
    (hPeak : (Nesting.outside s.depth).peak t ≤ limit) (h : s.run (Lexeme.scan t) = .ok v) :
    v.Readable P limit := by
  induction h using run_scan_induction with
  | done => exact hs.1
  | gap s p rest _ hGap _ ih =>
    rw [Nesting.peak_cons, Nesting.step_of_isPlain (Nesting.isPlain_of_isGap hGap)] at hPeak
    exact ih (fun q hq => ht q (List.mem_cons_of_mem _ hq)) hs (Nat.max_le.mp hPeak).2
  | token s s' token p w rest _ hFound hSpelled hStep _ ih =>
    obtain ⟨-, hDepth, -⟩ := step_eq_ok hStep
    rw [← List.cons_append, Nesting.peak_append, Nesting.after_of_spelled hSpelled, ← hDepth]
      at hPeak
    have hRest := (Nat.max_le.mp hPeak).2
    have hTail : ∀ q ∈ w ++ rest, S q := fun q hq => ht q (List.mem_cons_of_mem _ hq)
    have hToken : TokenReadable P token :=
      Lexeme.scanToken_readable (fun start r hScan => hText start _ r _ hTail hScan) hFound
    have hNext := step_readable hToken hs hStep ((Nesting.depth_le_peak _ _).trans hRest)
    exact ih (fun q hq => hTail q (List.mem_append_right _ hq)) hNext hRest

/-- A value that was read is readable, with containers nested no more deeply than the brackets of
its text. -/
theorem Value.readable_of_read
    (hText : ∀ start t r rest, (∀ p ∈ t, S p) → Lexeme.scanText start [] t = .ok (r, rest) → P r)
    {t : Text} {v : Value} (ht : ∀ p ∈ t, S p) (hLimit : t.nesting ≤ limit)
    (h : read t = .ok v) : v.Readable P limit := by
  rw [read] at h
  split at h
  · cases h
  · exact Reader.State.readable_of_run_scan hText (s := .value []) ht trivial hLimit h

end OscMonitor
