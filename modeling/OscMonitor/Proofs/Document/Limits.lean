import OscMonitor.Document.Limits
import OscMonitor.Proofs.Document.Readable

/-!
# When a value can be written

A writer finds no fault in a value exactly when there are levels enough for it and its integers have
no more digits than are written. Both can be told from the value alone, in whatever order the writer
takes its parts.

* `Value.height` — the levels that a value takes.
* `Value.Occurs` — the values that a value is made of.
* `Value.checkLevels_eq_ok_iff` — when a value has no fault.
-/

namespace OscMonitor

/-! ## Steps that may fail -/

section Steps

variable {α β ε ε' : Type}

/-- Two steps succeed when both do. -/
theorem bind_eq_ok_iff {first : Except ε α} {next : α → Except ε β} {b : β} :
    first >>= next = .ok b ↔ ∃ a, first = .ok a ∧ next a = .ok b := by
  cases first with
  | error fault => exact ⟨nofun, fun ⟨_, h, _⟩ => nomatch h⟩
  | ok a =>
    refine ⟨fun h => ⟨a, rfl, h⟩, ?_⟩
    rintro ⟨_, ⟨rfl⟩, h⟩
    exact h

theorem bind_unit_eq_ok_iff {first : Except ε Unit} {next : Except ε β} {b : β} :
    (do first; next) = .ok b ↔ first = .ok () ∧ next = .ok b := by
  rw [bind_eq_ok_iff]
  exact ⟨fun ⟨_, h⟩ => h, fun h => ⟨(), h⟩⟩

theorem mapError_eq_ok_iff {f : ε → ε'} {result : Except ε α} {a : α} :
    result.mapError f = .ok a ↔ result = .ok a := by
  cases result with
  | error fault => exact ⟨nofun, nofun⟩
  | ok b =>
    exact ⟨fun h => congrArg Except.ok (Except.ok.inj h),
      fun h => congrArg Except.ok (Except.ok.inj h)⟩

/-- All steps succeed when each does. -/
theorem forM_eq_ok_iff {step : α → Except ε Unit} {items : List α} :
    items.forM step = .ok () ↔ ∀ a ∈ items, step a = .ok () := by
  induction items with
  | nil => exact ⟨fun _ => nofun, fun _ => rfl⟩
  | cons a items ih =>
    rw [List.forall_mem_cons, ← ih]
    exact bind_unit_eq_ok_iff

end Steps

theorem Text.ofInt?_eq_ok {n : Int} (h : decimalLength n.natAbs ≤ Numeral.digitLimit) :
    ofInt? n = .ok (ofInt n) := if_neg (Nat.not_lt.mpr h)

namespace Value

/-! ## Levels -/

mutual

/-- The levels that a value takes, where a value without parts takes `leaf` of them. -/
def height (leaf : Nat) : Value → Nat
  | .list items => heightItems leaf items + 1
  | .object members => heightMembers leaf members + 1
  | .null | .bool _ | .int _ | .float _ | .text _ => leaf

def heightItems (leaf : Nat) : List Value → Nat
  | [] => 0
  | v :: rest => max (height leaf v) (heightItems leaf rest)

def heightMembers (leaf : Nat) : List (Text × Value) → Nat
  | [] => 0
  | (_, v) :: rest => max (height leaf v) (heightMembers leaf rest)

end

theorem heightItems_le_iff {leaf depth : Nat} {items : List Value} :
    heightItems leaf items ≤ depth ↔ ∀ v ∈ items, v.height leaf ≤ depth := by
  induction items with
  | nil => simp [heightItems]
  | cons v items ih => rw [heightItems, Nat.max_le, ih, List.forall_mem_cons]

theorem heightMembers_le_iff {leaf depth : Nat} {members : Object} :
    heightMembers leaf members ≤ depth ↔ ∀ m ∈ members, m.2.height leaf ≤ depth := by
  induction members with
  | nil => simp [heightMembers]
  | cons m members ih => rw [heightMembers, Nat.max_le, ih, List.forall_mem_cons]

/-! ## Parts -/

/-- A value occurs in another: it is the other value, or it occurs in an item or a member of it. -/
inductive Occurs (v : Value) : Value → Prop where
  | self : Occurs v v
  | item {w : Value} {items : List Value} (hItem : w ∈ items) (h : Occurs v w) :
    Occurs v (.list items)
  | member {m : Text × Value} {members : Object} (hMember : m ∈ members) (h : Occurs v m.2) :
    Occurs v (.object members)

/-- The integers in a value have no more digits than are written. -/
def IntegersShort (v : Value) : Prop :=
  ∀ n : Int, (Value.int n).Occurs v → decimalLength n.natAbs ≤ Numeral.digitLimit

theorem integersShort_int_iff {n : Int} :
    (int n).IntegersShort ↔ decimalLength n.natAbs ≤ Numeral.digitLimit := by
  refine ⟨fun h => h n .self, fun h k hOccurs => ?_⟩
  cases hOccurs with
  | self => exact h

theorem integersShort_list_iff {items : List Value} :
    (list items).IntegersShort ↔ ∀ v ∈ items, v.IntegersShort := by
  refine ⟨fun h v hv n hOccurs => h n (.item hv hOccurs), fun h n hOccurs => ?_⟩
  cases hOccurs with
  | item hItem hOccurs => exact h _ hItem n hOccurs

theorem integersShort_object_iff {members : Object} :
    (object members).IntegersShort ↔ ∀ m ∈ members, m.2.IntegersShort := by
  refine ⟨fun h m hm n hOccurs => h n (.member hm hOccurs), fun h n hOccurs => ?_⟩
  cases hOccurs with
  | member hMember hOccurs => exact h _ hMember n hOccurs

/-! ## Faults -/

theorem checkLeaf_eq_ok_iff {leaf depth : Nat} {rest : Except WriteFault Unit} :
    (if depth < leaf then .error .tooDeep else rest) = .ok () ↔ leaf ≤ depth ∧ rest = .ok () := by
  by_cases hLeaf : depth < leaf
  · simp [hLeaf, Nat.not_le.mpr hLeaf]
  · simp [hLeaf, Nat.not_lt.mp hLeaf]

theorem checkInt_eq_ok_iff {n : Int} :
    discard (Text.ofInt? n) = .ok () ↔ (int n).IntegersShort := by
  rw [integersShort_int_iff, Text.ofInt?]
  by_cases hDigits : Numeral.digitLimit < decimalLength n.natAbs
  · rw [if_pos hDigits]
    exact ⟨nofun, fun h => absurd hDigits (Nat.not_lt.mpr h)⟩
  · rw [if_neg hDigits]
    exact ⟨fun _ => Nat.not_lt.mp hDigits, fun _ => rfl⟩

mutual

/-- **When a value has no fault.** There are levels for it, and its integers can be written. -/
theorem checkLevels_eq_ok_iff (leaf : Nat) : ∀ (v : Value) (depth : Nat),
    v.checkLevels leaf depth = .ok () ↔ v.height leaf ≤ depth ∧ v.IntegersShort
  | .int n, depth => by
    rw [checkLevels, checkLeaf_eq_ok_iff, checkInt_eq_ok_iff, height]
  | .list items, 0 => ⟨nofun, fun h => nomatch h.1⟩
  | .list items, depth + 1 => by
    rw [checkLevels, height, Nat.add_le_add_iff_right, integersShort_list_iff]
    exact checkItems_eq_ok_iff leaf items depth
  | .object members, 0 => ⟨nofun, fun h => nomatch h.1⟩
  | .object members, depth + 1 => by
    rw [checkLevels, height, Nat.add_le_add_iff_right, integersShort_object_iff]
    exact checkMembers_eq_ok_iff leaf members depth
  | .null, depth | .bool _, depth | .float _, depth | .text _, depth => by
    rw [checkLevels, checkLeaf_eq_ok_iff, height]
    refine and_congr_right fun _ => ⟨fun _ n hOccurs => ?_, fun _ => rfl⟩
    cases hOccurs

theorem checkItems_eq_ok_iff (leaf : Nat) : ∀ (items : List Value) (depth : Nat),
    checkItems leaf depth items = .ok () ↔
      heightItems leaf items ≤ depth ∧ ∀ v ∈ items, v.IntegersShort
  | [], depth => by simp [checkItems, heightItems]
  | v :: items, depth => by
    rw [checkItems, bind_unit_eq_ok_iff, checkLevels_eq_ok_iff leaf v depth,
      checkItems_eq_ok_iff leaf items depth, heightItems, Nat.max_le, List.forall_mem_cons]
    exact and_and_and_comm

theorem checkMembers_eq_ok_iff (leaf : Nat) : ∀ (members : List (Text × Value)) (depth : Nat),
    checkMembers leaf depth members = .ok () ↔
      heightMembers leaf members ≤ depth ∧ ∀ m ∈ members, m.2.IntegersShort
  | [], depth => by simp [checkMembers, heightMembers]
  | (_, v) :: members, depth => by
    rw [checkMembers, bind_unit_eq_ok_iff, checkLevels_eq_ok_iff leaf v depth,
      checkMembers_eq_ok_iff leaf members depth, heightMembers, Nat.max_le, List.forall_mem_cons]
    exact and_and_and_comm

end

theorem check_eq_ok_iff {v : Value} {depth : Nat} :
    v.check depth = .ok () ↔ v.height 0 ≤ depth ∧ v.IntegersShort :=
  checkLevels_eq_ok_iff 0 v depth

theorem checkShown_eq_ok_iff {v : Value} {depth : Nat} :
    v.checkShown depth = .ok () ↔ v.height 1 ≤ depth ∧ v.IntegersShort :=
  checkLevels_eq_ok_iff 1 v depth

theorem print?_eq_ok_iff {s : Separators} {depth : Nat} {v : Value} {t : Text} :
    v.print? s depth = .ok t ↔ v.check depth = .ok () ∧ v.print s = t := by
  rw [print?, bind_unit_eq_ok_iff]
  exact and_congr_right fun _ => ⟨Except.ok.inj, congrArg Except.ok⟩

/-! ## Readable values -/

section Readable

variable {P : Text → Prop} {depth : Nat}

/-- A value that occurs in a readable one is readable. -/
theorem Occurs.readable {v w : Value} (h : v.Occurs w) (hReadable : w.Readable P depth) :
    v.Readable P depth := by
  induction h with
  | self => exact hReadable
  | item hItem _ ih =>
    cases hReadable with
    | list hItems => exact ih ((hItems _ hItem).mono (Nat.le_succ _) fun _ h => h)
  | member hMember _ ih =>
    cases hReadable with
    | object _ _ hMembers => exact ih ((hMembers _ hMember).mono (Nat.le_succ _) fun _ h => h)

theorem Readable.height_le {v : Value} (h : v.Readable P depth) : v.height 0 ≤ depth := by
  induction h with
  | list _ ih => exact Nat.succ_le_succ (heightItems_le_iff.mpr ih)
  | object _ _ _ ih => exact Nat.succ_le_succ (heightMembers_le_iff.mpr ih)
  | _ => exact Nat.zero_le _

/-- A readable value has no fault. -/
theorem check_of_readable {v : Value} (h : v.Readable P depth) : v.check depth = .ok () :=
  check_eq_ok_iff.mpr ⟨h.height_le, fun _ hOccurs => readable_int_iff.mp (hOccurs.readable h)⟩

end Readable

end Value

end OscMonitor
