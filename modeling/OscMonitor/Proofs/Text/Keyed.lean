import Mathlib.Data.List.Nodup
import OscMonitor.Text.Keyed

/-!
# Looking up keys

What a look-up finds in entries that are built item by item, and what look-ups say about the
entries when no key occurs twice.

* `get?_map_items` — entries made from items are found under the keys of the items.
* `get?_filter` — entries that are kept by their keys are found as before.
* `mem_iff_get?_eq_some` — with distinct keys a look-up finds exactly the entries.
* `perm_of_get?_eq` — with distinct keys, equal look-ups leave only the order open.
-/

namespace OscMonitor.Keyed

variable {α β ι : Type}

theorem get?_eq_none_iff {o : Keyed α} {key : Text} : o.get? key = none ↔ key ∉ o.keys := by
  induction o with
  | nil => simp [get?, keys]
  | cons m o ih =>
    obtain ⟨k, v⟩ := m
    by_cases hk : k = key
    · simp [get?, keys, hk]
    · have hRest : key ∉ keys ((k, v) :: o) ↔ key ∉ keys o := by
        simp [keys, Ne.symm hk]
      rw [get?, if_neg hk, ih, hRest]

theorem get?_append (o o' : Keyed α) (key : Text) :
    get? key (o ++ o') = (o.get? key).or (o'.get? key) := by
  induction o with
  | nil => rfl
  | cons m o ih =>
    obtain ⟨k, v⟩ := m
    by_cases hk : k = key
    · simp [get?, hk]
    · simp only [List.cons_append, get?, if_neg hk]
      exact ih

theorem get?_map_value (f : α → β) (o : Keyed α) (key : Text) :
    get? key (o.map fun (k, v) => (k, f v)) = (o.get? key).map f := by
  induction o with
  | nil => rfl
  | cons m o ih =>
    obtain ⟨k, v⟩ := m
    by_cases hk : k = key
    · simp [get?, hk]
    · simp only [List.map_cons, get?, if_neg hk]
      exact ih

/-- Entries that are kept by their keys are found as before, and the others are not found. -/
theorem get?_filter (p : Text → Bool) (o : Keyed α) (key : Text) :
    get? key (o.filter fun (k, _) => p k) = if p key then o.get? key else none := by
  induction o with
  | nil => simp [get?]
  | cons m o ih =>
    obtain ⟨k, v⟩ := m
    rw [List.filter_cons]
    by_cases hp : p k = true
    · by_cases hk : k = key
      · subst hk
        simp only [if_pos hp, get?, if_true]
      · simp only [if_pos hp, get?, if_neg hk]
        exact ih
    · rw [if_neg hp, ih]
      by_cases hk : k = key
      · subst hk
        rw [if_neg hp, if_neg hp]
      · simp only [get?, if_neg hk]

theorem keys_map_value (f : α → β) (o : Keyed α) :
    keys (o.map fun (k, v) => (k, f v)) = o.keys := by
  rw [keys, keys, List.map_map]
  rfl

/-- Entries that are made from items are found under the keys of the items, if these tell the items
apart. -/
theorem get?_map_items [DecidableEq ι] (key : ι → Text) (value : ι → α) {items : List ι} {i : ι}
    (hKey : ∀ j ∈ items, key j = key i → j = i) :
    get? (key i) (items.map fun j => (key j, value j)) =
      if i ∈ items then some (value i) else none := by
  induction items with
  | nil => rfl
  | cons j items ih =>
    rw [List.map_cons, get?]
    by_cases hj : j = i
    · subst hj
      rw [if_pos rfl, if_pos List.mem_cons_self]
    · have hNe : key j ≠ key i := fun h => hj (hKey j List.mem_cons_self h)
      rw [if_neg hNe, ih fun j hj => hKey j (List.mem_cons_of_mem _ hj)]
      simp [Ne.symm hj]

theorem mem_insert {o : Keyed α} {key : Text} {v : α} {m : Text × α} (h : m ∈ o.insert key v) :
    m = (key, v) ∨ m ∈ o := by
  induction o with
  | nil => exact .inl (List.mem_singleton.mp h)
  | cons m' o ih =>
    obtain ⟨k, w⟩ := m'
    rw [insert] at h
    split at h
    · next hk =>
      subst hk
      exact (List.mem_cons.mp h).imp_right (List.mem_cons_of_mem _)
    · rcases List.mem_cons.mp h with rfl | hRest
      · exact .inr List.mem_cons_self
      · exact (ih hRest).imp_right (List.mem_cons_of_mem _)

/-- A new key comes last. -/
theorem insert_of_not_mem {o : Keyed α} {key : Text} (h : key ∉ o.keys) (v : α) :
    o.insert key v = o ++ [(key, v)] := by
  induction o with
  | nil => rfl
  | cons m o ih =>
    obtain ⟨k, w⟩ := m
    rw [keys, List.map_cons, List.mem_cons, not_or] at h
    rw [insert, if_neg (Ne.symm h.1), ih h.2, List.cons_append]

/-! ## Distinct keys -/

theorem mem_of_get?_eq_some {o : Keyed α} {key : Text} {v : α} (h : o.get? key = some v) :
    (key, v) ∈ o := by
  induction o with
  | nil => cases h
  | cons m o ih =>
    obtain ⟨k, w⟩ := m
    rw [get?] at h
    split at h
    · next hk =>
      obtain rfl := Option.some.inj h
      rw [hk]
      exact List.mem_cons_self
    · exact List.mem_cons_of_mem _ (ih h)

/-- With distinct keys a look-up finds exactly the entries. -/
theorem mem_iff_get?_eq_some {o : Keyed α} (hDistinct : o.keys.Nodup) {key : Text} {v : α} :
    (key, v) ∈ o ↔ o.get? key = some v := by
  refine ⟨fun h => ?_, mem_of_get?_eq_some⟩
  induction o with
  | nil => cases h
  | cons m o ih =>
    obtain ⟨k, w⟩ := m
    rw [keys, List.map_cons, List.nodup_cons] at hDistinct
    rcases List.mem_cons.mp h with hHead | hRest
    · obtain ⟨rfl, rfl⟩ := Prod.mk.inj hHead
      rw [get?, if_pos rfl]
    · have hNe : k ≠ key := by
        rintro rfl
        exact hDistinct.1 (List.mem_map.mpr ⟨_, hRest, rfl⟩)
      rw [get?, if_neg hNe]
      exact ih hDistinct.2 hRest

/-- With distinct keys, equal look-ups leave only the order of the entries open. -/
theorem perm_of_get?_eq {o o' : Keyed α} (hDistinct : o.keys.Nodup) (hDistinct' : o'.keys.Nodup)
    (h : ∀ key, o.get? key = o'.get? key) : o.Perm o' := by
  have hNodup := List.Nodup.of_map _ hDistinct
  have hNodup' := List.Nodup.of_map _ hDistinct'
  refine (List.perm_ext_iff_of_nodup hNodup hNodup').mpr ?_
  rintro ⟨key, v⟩
  rw [mem_iff_get?_eq_some hDistinct, mem_iff_get?_eq_some hDistinct', h]

/-- With distinct keys the order of the entries is of no account to a look-up. -/
theorem get?_eq_of_perm {o o' : Keyed α} (hDistinct : o.keys.Nodup) (h : o.Perm o') (key : Text) :
    o.get? key = o'.get? key := by
  have hDistinct' : o'.keys.Nodup := (h.map Prod.fst).nodup_iff.mp hDistinct
  refine Option.ext fun v => ?_
  rw [← mem_iff_get?_eq_some hDistinct, ← mem_iff_get?_eq_some hDistinct', h.mem_iff]

end OscMonitor.Keyed
