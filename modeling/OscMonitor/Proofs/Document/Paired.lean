import OscMonitor.Document.Arrangement
import OscMonitor.Proofs.Document.Limits
import OscMonitor.Proofs.Document.Printed
import OscMonitor.Proofs.Text.Order
import OscMonitor.Proofs.Text.Utf8

/-!
# What becomes of halves in print

A value may hold any text, and so a high half of a surrogate pair right before a low one. In print
the two cannot be told from the character that they are halves of, so they read back as that
character, and nothing else changes.

* `Text.paired` and `Value.paired` put such halves together; a joined text stays as it is.
* `Value.print_paired` — in print there is no difference.
* `Value.Writable` — the values that can be written and read back, whatever their texts hold.
* `Value.read_arranged` — what is printed of them, arranged in any way, reads back with halves put
  together.
-/

namespace OscMonitor

open Lexeme

/-! ## Texts -/

namespace CodePoint

theorem printPoint_of_isHalf {p : CodePoint} (h : p.isHighHalf = true ∨ p.isLowHalf = true) :
    printPoint p = escapeUnit p.number := by
  cases p with
  | surrogate offset => rfl
  | scalar c => rcases h with h | h <;> cases h

/-- A character beyond the first plane is printed as its halves. -/
theorem printPoint_of_large {c : Char} (h : 0x10000 ≤ c.toNat) :
    printPoint (.scalar c) =
      escapeUnit (0xD800 + (c.toNat - 0x10000) / 0x400) ++
        escapeUnit (0xDC00 + (c.toNat - 0x10000) % 0x400) := by
  have hNe : ∀ d : Char, d.toNat < 0x10000 → c ≠ d := by
    rintro d hd rfl
    omega
  have hVisible : ¬ (' ' ≤ c ∧ c ≤ '~') := by
    rintro ⟨-, hLe⟩
    have hTilde : c.toNat ≤ 0x7E := hLe
    omega
  rw [printPoint, if_neg (hNe _ (by decide)), if_neg (hNe _ (by decide)),
    if_neg (hNe _ (by decide)), if_neg (hNe _ (by decide)), if_neg (hNe _ (by decide)),
    if_neg (hNe _ (by decide)), if_neg (hNe _ (by decide)), if_neg hVisible,
    if_neg (Nat.not_lt.mpr h)]

/-- The character that two halves make, by its number. -/
theorem joinHalves_eq {p q : CodePoint} (hHigh : p.isHighHalf = true) (hLow : q.isLowHalf = true) :
    ∃ c : Char, joinHalves p.number q.number = .scalar c ∧
      c.toNat = 0x10000 + (p.number - 0xD800) * 0x400 + (q.number - 0xDC00) := by
  have hp := isHighHalf_iff.mp hHigh
  have hq := isLowHalf_iff.mp hLow
  have hLarge : ¬ (0xD800 ≤ 0x10000 + (p.number - 0xD800) * 0x400 + (q.number - 0xDC00) ∧
      0x10000 + (p.number - 0xD800) * 0x400 + (q.number - 0xDC00) < 0xE000) := by omega
  refine ⟨_, by rw [joinHalves, ofNumber, dif_neg hLarge], Utf8.toNat_ofNat ?_⟩
  right
  omega

theorem printPoint_joinHalves {p q : CodePoint} (hHigh : p.isHighHalf = true)
    (hLow : q.isLowHalf = true) :
    printPoint (joinHalves p.number q.number) = printPoint p ++ printPoint q := by
  obtain ⟨c, hJoin, hc⟩ := joinHalves_eq hHigh hLow
  have hp := isHighHalf_iff.mp hHigh
  have hq := isLowHalf_iff.mp hLow
  have hFirst : 0xD800 + (c.toNat - 0x10000) / 0x400 = p.number := by omega
  have hSecond : 0xDC00 + (c.toNat - 0x10000) % 0x400 = q.number := by omega
  rw [hJoin, printPoint_of_large (by omega), hFirst, hSecond, printPoint_of_isHalf (.inl hHigh),
    printPoint_of_isHalf (.inr hLow)]

theorem not_half_joinHalves {p q : CodePoint} (hHigh : p.isHighHalf = true)
    (hLow : q.isLowHalf = true) :
    (joinHalves p.number q.number).isHighHalf = false ∧
      (joinHalves p.number q.number).isLowHalf = false := by
  obtain ⟨c, hJoin, -⟩ := joinHalves_eq hHigh hLow
  rw [hJoin]
  exact ⟨rfl, rfl⟩

end CodePoint

namespace Text

instance (t : Text) : Decidable t.Joined :=
  inferInstanceAs
    (Decidable (t.IsChain fun p q => ¬ (p.isHighHalf = true ∧ q.isLowHalf = true)))

/-- A text with every high half and low half that stand next to each other put together. -/
def paired : Text → Text
  | [] => []
  | [p] => [p]
  | p :: q :: rest =>
    if p.isHighHalf = true ∧ q.isLowHalf = true then joinHalves p.number q.number :: paired rest
    else p :: paired (q :: rest)

theorem paired_of_joined {t : Text} (h : t.Joined) : t.paired = t := by
  fun_induction paired t with
  | case1 => rfl
  | case2 p => rfl
  | case3 p q rest hPair _ => exact absurd hPair (List.isChain_cons_cons.mp h).1
  | case4 p q rest _ ih => rw [ih (List.isChain_cons_cons.mp h).2]

theorem paired_of_isScalar {t : Text} (h : ∀ p ∈ t, p.isScalar = true) : t.paired = t := by
  fun_induction paired t with
  | case1 => rfl
  | case2 p => rfl
  | case3 p q rest hPair ih =>
    have hp := h p List.mem_cons_self
    match p with
    | .scalar _ => cases hPair.1
    | .surrogate _ => cases hp
  | case4 p q rest hPair ih => rw [ih fun r hr => h r (List.mem_cons_of_mem _ hr)]

/-- Halves that are put together make a character beyond the first plane. -/
theorem paired_of_number_lt {t : Text} (h : ∀ p ∈ t.paired, p.number < 0x10000) :
    t.paired = t := by
  fun_induction paired t with
  | case1 => rfl
  | case2 p => rfl
  | case3 p q rest hPair ih =>
    obtain ⟨c, hJoin, hc⟩ := CodePoint.joinHalves_eq hPair.1 hPair.2
    have hNumber := h _ List.mem_cons_self
    rw [hJoin, CodePoint.number] at hNumber
    omega
  | case4 p q rest hPair ih => rw [ih fun r hr => h r (List.mem_cons_of_mem _ hr)]

/-- No low half comes first that was not first before. -/
theorem head_paired {t : Text} {p : CodePoint} (hHead : t.paired.head? = some p)
    (hLow : p.isLowHalf = true) : t.head? = some p := by
  fun_cases paired t with
  | case1 => exact hHead
  | case2 p => exact hHead
  | case3 q r rest hPair =>
    rw [paired, if_pos hPair] at hHead
    obtain rfl := Option.some.inj hHead
    rw [(CodePoint.not_half_joinHalves hPair.1 hPair.2).2] at hLow
    cases hLow
  | case4 q r rest hPair =>
    rw [paired, if_neg hPair] at hHead
    exact hHead

theorem joined_paired (t : Text) : t.paired.Joined := by
  fun_induction paired t with
  | case1 => exact .nil
  | case2 p => exact .singleton p
  | case3 p q rest hPair ih =>
    refine List.isChain_cons.mpr ⟨fun r _ => ?_, ih⟩
    rw [(CodePoint.not_half_joinHalves hPair.1 hPair.2).1]
    rintro ⟨hHigh, -⟩
    cases hHigh
  | case4 p q rest hPair ih =>
    refine List.isChain_cons.mpr ⟨fun r hr hHalves => hPair ⟨hHalves.1, ?_⟩, ih⟩
    obtain rfl : q = r := Option.some.inj (head_paired hr hHalves.2)
    exact hHalves.2

end Text

theorem printText_paired (t : Text) : printText t.paired = printText t := by
  have hPoints : t.paired.flatMap printPoint = t.flatMap printPoint := by
    fun_induction Text.paired t with
    | case1 => rfl
    | case2 p => rfl
    | case3 p q rest hPair ih =>
      rw [List.flatMap_cons, ih, CodePoint.printPoint_joinHalves hPair.1 hPair.2, List.append_assoc]
      rfl
    | case4 p q rest _ ih =>
      rw [List.flatMap_cons, ih]
      rfl
  rw [printText, hPoints, printText]

/-! ## Values -/

namespace Value

mutual

/-- A value with the halves in its texts put together. Names stay as they are. -/
def paired : Value → Value
  | .text t => .text t.paired
  | .list items => .list (pairedItems items)
  | .object members => .object (pairedMembers members)
  | v => v

def pairedItems : List Value → List Value
  | [] => []
  | v :: rest => paired v :: pairedItems rest

def pairedMembers : List (Text × Value) → List (Text × Value)
  | [] => []
  | (key, v) :: rest => (key, paired v) :: pairedMembers rest

end

mutual

/-- In print there is no difference. -/
theorem print_paired (s : Separators) : ∀ v : Value, v.paired.print s = v.print s
  | .null | .bool _ | .int _ | .float _ => rfl
  | .text t => printText_paired t
  | .list items => by rw [paired, print, print, printItems_paired s items]
  | .object members => by rw [paired, print, print, printMembers_paired s members]

theorem printItems_paired (s : Separators) :
    ∀ items : List Value, printItems s (pairedItems items) = printItems s items
  | [] => rfl
  | [v] => print_paired s v
  | v :: w :: items => by
    have hRest := printItems_paired s (w :: items)
    rw [pairedItems] at hRest
    rw [pairedItems, pairedItems, printItems, printItems, hRest, print_paired s v]

theorem printMembers_paired (s : Separators) :
    ∀ members : List (Text × Value), printMembers s (pairedMembers members) = printMembers s members
  | [] => rfl
  | [(key, v)] => by
    rw [pairedMembers, pairedMembers, printMembers, printMembers, print_paired s v]
  | (key, v) :: (key', v') :: members => by
    have hRest := printMembers_paired s ((key', v') :: members)
    rw [pairedMembers] at hRest
    rw [pairedMembers, pairedMembers, printMembers, printMembers, hRest, print_paired s v]

end

mutual

/-- To a writer there is no difference either. -/
theorem checkLevels_paired (leaf : Nat) :
    ∀ (v : Value) (depth : Nat), v.paired.checkLevels leaf depth = v.checkLevels leaf depth
  | .null, _ | .bool _, _ | .int _, _ | .float _, _ | .text _, _ => rfl
  | .list _, 0 | .object _, 0 => rfl
  | .list items, depth + 1 => checkItems_paired leaf items depth
  | .object members, depth + 1 => checkMembers_paired leaf members depth

theorem checkItems_paired (leaf : Nat) : ∀ (items : List Value) (depth : Nat),
    checkItems leaf depth (pairedItems items) = checkItems leaf depth items
  | [], _ => rfl
  | v :: items, depth => by
    rw [pairedItems, checkItems, checkItems, checkLevels_paired leaf v depth,
      checkItems_paired leaf items depth]

theorem checkMembers_paired (leaf : Nat) : ∀ (members : List (Text × Value)) (depth : Nat),
    checkMembers leaf depth (pairedMembers members) = checkMembers leaf depth members
  | [], _ => rfl
  | (_, v) :: members, depth => by
    rw [pairedMembers, checkMembers, checkMembers, checkLevels_paired leaf v depth,
      checkMembers_paired leaf members depth]

end

theorem pairedItems_eq_map (items : List Value) : pairedItems items = items.map paired := by
  induction items with
  | nil => rfl
  | cons v items ih => rw [pairedItems, ih, List.map_cons]

theorem pairedMembers_eq_map (members : Object) :
    pairedMembers members = members.map fun (key, v) => (key, v.paired) := by
  induction members with
  | nil => rfl
  | cons m members ih => rw [pairedMembers, ih, List.map_cons]

/-! ## Values that can be written -/

/-- The values that can be written and read back, with containers nested at most `depth` deep: their
integers are not too long to be read, and their names are distinct and have no halves to put
together. -/
def Writable (depth : Nat) (v : Value) : Prop := v.paired.Readable Text.Joined depth

namespace Writable

variable {depth : Nat}

@[simp] theorem null : Value.null.Writable depth := Readable.null

@[simp] theorem float (x : Double) : (Value.float x).Writable depth := Readable.float

theorem int {n : Int} (h : decimalLength n.natAbs ≤ Numeral.digitLimit) :
    (Value.int n).Writable depth :=
  Readable.int h

@[simp] theorem text (t : Text) : (Value.text t).Writable depth := Readable.text t.joined_paired

theorem list {items : List Value} (h : ∀ v ∈ items, v.Writable depth) :
    (Value.list items).Writable (depth + 1) := by
  unfold Writable
  rw [paired, pairedItems_eq_map]
  exact .list (List.forall_mem_map.mpr h)

theorem mono {v : Value} (h : v.Writable depth) {depth' : Nat} (hLe : depth ≤ depth') :
    v.Writable depth' :=
  Readable.mono h hLe fun _ ht => ht

/-- A writer finds no fault in a value that can be written. -/
theorem check {v : Value} (h : v.Writable depth) : v.check depth = .ok () :=
  (checkLevels_paired 0 v depth).symm.trans (check_of_readable h)

end Writable

end Value

/-- The members of objects that can be written and read back, with so much room for containers. -/
structure Object.Writable (room : Nat) (o : Object) : Prop where
  keys : o.keys.Nodup
  names : ∀ m ∈ o, m.1.Joined
  values : ∀ m ∈ o, m.2.Writable room

namespace Object.Writable

variable {room : Nat} {o o' : Object}

theorem nil : Writable room [] := ⟨List.nodup_nil, nofun, nofun⟩

theorem cons {key : Text} {v : Value} (hKey : key ∉ o.keys) (hName : key.Joined)
    (hv : v.Writable room) (h : o.Writable room) : Writable room ((key, v) :: o) where
  keys := List.nodup_cons.mpr ⟨hKey, h.keys⟩
  names := List.forall_mem_cons.mpr ⟨hName, h.names⟩
  values := List.forall_mem_cons.mpr ⟨hv, h.values⟩

/-- Members by their names and their values. -/
theorem of_keys (names : List Text) (hKeys : o.keys = names)
    (hNames : names.Nodup ∧ ∀ name ∈ names, name.Joined)
    (hValues : ∀ v ∈ o.map Prod.snd, v.Writable room) : o.Writable room where
  keys := hKeys ▸ hNames.1
  names m hm := hNames.2 m.1 (hKeys ▸ List.mem_map_of_mem hm)
  values m hm := hValues m.2 (List.mem_map_of_mem hm)

theorem append (h : o.Writable room) (h' : o'.Writable room)
    (hDisjoint : ∀ key ∈ o.keys, key ∉ o'.keys) : Writable room (o ++ o') where
  keys := by
    rw [Keyed.keys, List.map_append]
    exact List.Nodup.append h.keys h'.keys hDisjoint
  names := List.forall_mem_append.mpr ⟨h.names, h'.names⟩
  values := List.forall_mem_append.mpr ⟨h.values, h'.values⟩

theorem insert (h : o.Writable room) {key : Text} {v : Value} (hName : key.Joined)
    (hv : v.Writable room) : Writable room (Keyed.insert key v o) where
  keys := Keyed.nodup_keys_insert h.keys key v
  names m hm := by
    rcases Keyed.mem_insert hm with rfl | hm
    · exact hName
    · exact h.names m hm
  values m hm := by
    rcases Keyed.mem_insert hm with rfl | hm
    · exact hv
    · exact h.values m hm

theorem filter (h : o.Writable room) (p : Text × Value → Bool) : Writable room (o.filter p) where
  keys := ((List.filter_sublist (p := p)).map Prod.fst).nodup h.keys
  names m hm := h.names m (List.mem_of_mem_filter hm)
  values m hm := h.values m (List.mem_of_mem_filter hm)

theorem perm (h : o.Writable room) (hPerm : o.Perm o') : o'.Writable room where
  keys := (hPerm.map Prod.fst).nodup_iff.mp h.keys
  names m hm := h.names m (hPerm.mem_iff.mpr hm)
  values m hm := h.values m (hPerm.mem_iff.mpr hm)

theorem value (h : o.Writable room) : (Value.object o).Writable (room + 1) := by
  unfold Value.Writable
  rw [Value.paired, Value.pairedMembers_eq_map]
  refine .object ?_ (List.forall_mem_map.mpr h.names) (List.forall_mem_map.mpr h.values)
  rw [Keyed.keys_map_value]
  exact h.keys

end Object.Writable

/-- The members of an object that can be written. -/
theorem Value.Writable.members {depth : Nat} {o : Object}
    (h : (Value.object o).Writable (depth + 1)) : o.Writable depth := by
  unfold Value.Writable at h
  rw [Value.paired, Value.pairedMembers_eq_map] at h
  cases h with
  | object hKeys hNames hValues =>
    rw [Keyed.keys_map_value] at hKeys
    exact ⟨hKeys, fun m hm => hNames (m.1, m.2.paired) (List.mem_map_of_mem hm),
      fun m hm => hValues (m.1, m.2.paired) (List.mem_map_of_mem hm)⟩

namespace Value

/-! ## Arranging -/

theorem keys_arrangedMembers (a : Arrangement) (o : Object) :
    Keyed.keys (arrangedMembers a o) = o.keys := by
  rw [arrangedMembers_eq_map]
  exact Keyed.keys_map_value (arranged a) o

mutual

/-- A value that can be written can be written with its members in any order. -/
theorem Writable.arranged (a : Arrangement) :
    ∀ (v : Value) {depth : Nat}, v.Writable depth → (v.arranged a).Writable depth
  | .null, _, h | .bool _, _, h | .int _, _, h | .float _, _, h | .text _, _, h => h
  | .list items, depth, h => by
    unfold Writable at h
    rw [paired, pairedItems_eq_map] at h
    cases h with
    | list hItems =>
      exact .list (writable_arrangedItems a items fun v hv => hItems _ (List.mem_map_of_mem hv))
  | .object members, 0, h => nomatch h
  | .object members, depth + 1, h => by
    have hMembers := h.members
    have hArranged : Object.Writable depth (arrangedMembers a members) := by
      refine ⟨?_, ?_, writable_arrangedMembers a members hMembers.values⟩
      · rw [keys_arrangedMembers]
        exact hMembers.keys
      · rw [arrangedMembers_eq_map]
        exact List.forall_mem_map.mpr hMembers.names
    exact (hArranged.perm (a.perm _).symm).value

theorem writable_arrangedItems (a : Arrangement) :
    ∀ (items : List Value) {depth : Nat}, (∀ v ∈ items, v.Writable depth) →
      ∀ v ∈ arrangedItems a items, v.Writable depth
  | [], _, _ => nofun
  | v :: items, _, h =>
    have h' := List.forall_mem_cons.mp h
    List.forall_mem_cons.mpr ⟨Writable.arranged a v h'.1, writable_arrangedItems a items h'.2⟩

theorem writable_arrangedMembers (a : Arrangement) :
    ∀ (members : List (Text × Value)) {depth : Nat}, (∀ m ∈ members, m.2.Writable depth) →
      ∀ m ∈ arrangedMembers a members, m.2.Writable depth
  | [], _, _ => nofun
  | (_, v) :: members, _, h =>
    have h' := List.forall_mem_cons.mp h
    List.forall_mem_cons.mpr ⟨Writable.arranged a v h'.1, writable_arrangedMembers a members h'.2⟩

end

/-- What is printed of a value that can be written reads back with halves put together, in whatever
order its members are printed. -/
theorem read_arranged (a : Arrangement) {v : Value} (h : v.Writable Reader.depthLimit) :
    read (v.arranged a).spaced = .ok (v.arranged a).paired := by
  rw [spaced, ← print_paired, read_print Separators.isPlain_spaced (Writable.arranged a v h)]

/-- The members of an arranged object are found as before, each arranged and with its halves put
together. -/
theorem object_arranged_paired (a : Arrangement) {o : Object} (hKeys : o.keys.Nodup) :
    ∃ o' : Object, ((object o).arranged a).paired = .object o' ∧
      ∀ key, o'.get? key = (o.get? key).map fun v => (v.arranged a).paired := by
  refine ⟨(a.members (arrangedMembers a o)).map fun (key, v) => (key, v.paired), ?_, fun key => ?_⟩
  · rw [arranged, paired, pairedMembers_eq_map]
  · have hArranged : (Keyed.keys (arrangedMembers a o)).Nodup := by
      rw [keys_arrangedMembers]
      exact hKeys
    rw [Keyed.get?_map_value, ← Keyed.get?_eq_of_perm hArranged (a.perm _).symm,
      arrangedMembers_eq_map, Keyed.get?_map_value, Option.map_map]
    rfl

end Value

end OscMonitor
