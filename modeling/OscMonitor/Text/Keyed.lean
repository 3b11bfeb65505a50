import OscMonitor.Text.Basic

/-!
# Values under keys

Values under texts as keys, in the order in which the keys first came.

* `Keyed.insert` keeps the place of the first value of a key and takes the last value.
* `Keyed.get?` looks a key up, `Keyed.last?` from the end.
-/

namespace OscMonitor

/-- Values with their keys, in order. -/
abbrev Keyed (α : Type) := List (Text × α)

namespace Keyed

variable {α : Type}

/-- The value under a key. -/
def get? (key : Text) : Keyed α → Option α
  | [] => none
  | (k, v) :: rest => if k = key then some v else get? key rest

/-- The last value under a key. -/
def last? (o : Keyed α) (key : Text) : Option α := get? key o.reverse

/-- Whether there is a value under a key. -/
def has (o : Keyed α) (key : Text) : Bool := (o.get? key).isSome

/-- Gives a key a value: in its place if it is there, at the end if it is new. -/
def insert (key : Text) (value : α) : Keyed α → Keyed α
  | [] => [(key, value)]
  | (k, v) :: rest => if k = key then (k, value) :: rest else (k, v) :: insert key value rest

/-- The keys, in order. -/
def keys (o : Keyed α) : List Text := o.map Prod.fst

@[simp] theorem get?_insert_self (o : Keyed α) (key : Text) (value : α) :
    (o.insert key value).get? key = some value := by
  induction o with
  | nil => simp [insert, get?]
  | cons m o ih =>
    obtain ⟨k, v⟩ := m
    by_cases h : k = key <;> simp [insert, get?, h, ih]

theorem get?_insert_of_ne (o : Keyed α) {key other : Text} (value : α) (h : other ≠ key) :
    (o.insert key value).get? other = o.get? other := by
  induction o with
  | nil => simp [insert, get?, Ne.symm h]
  | cons m o ih =>
    obtain ⟨k, v⟩ := m
    by_cases hk : k = key
    · subst hk; simp [insert, get?, Ne.symm h]
    · simp only [insert, if_neg hk, get?, ih]

theorem mem_keys_insert (o : Keyed α) (key other : Text) (value : α) :
    other ∈ (o.insert key value).keys ↔ other = key ∨ other ∈ o.keys := by
  induction o with
  | nil => simp [insert, keys]
  | cons m o ih =>
    obtain ⟨k, v⟩ := m
    by_cases hk : k = key
    · subst hk; simp [insert, keys]
    · have := ih
      simp only [keys] at this
      simp [insert, keys, hk, this, or_left_comm]

/-- Inserting keeps keys distinct. -/
theorem nodup_keys_insert {o : Keyed α} (h : o.keys.Nodup) (key : Text) (value : α) :
    (o.insert key value).keys.Nodup := by
  induction o with
  | nil => simp [insert, keys]
  | cons m o ih =>
    obtain ⟨k, v⟩ := m
    simp only [keys, List.map_cons, List.nodup_cons] at h
    by_cases hk : k = key
    · subst hk; simpa [insert, keys] using h
    · have ih' := ih h.2
      have hm : k ∉ (insert key value o).keys := by
        rw [mem_keys_insert]
        rintro (rfl | hin)
        · exact hk rfl
        · exact h.1 hin
      simp only [keys] at ih' hm
      simp [insert, keys, hk, ih', hm]

end Keyed

end OscMonitor
