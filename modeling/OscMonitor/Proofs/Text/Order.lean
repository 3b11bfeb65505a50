import OscMonitor.Proofs.Text.Keyed

/-!
# The order of texts

Texts are totally ordered, so entries under distinct keys have one order only: sorted by their
keys, they are the same whatever order they came in.

* `le_trans`, `le_total`, `le_antisymm` — the order of code points makes a total order of texts.
* `increasing_sortByKey` — entries sorted by distinct keys are in strictly increasing order.
* `sortByKey_eq_of_get?_eq` — with distinct keys, equal look-ups give equal sorted entries.
-/

namespace OscMonitor

namespace CodePoint

/-- No character has the number of a surrogate. -/
theorem number_scalar_ne (c : Char) (offset : Fin 2048) :
    (scalar c).number ≠ (surrogate offset).number := by
  have hValid := c.valid
  have hOffset := offset.isLt
  simp only [UInt32.isValidChar, Nat.isValidChar] at hValid
  simp only [number, Char.toNat]
  omega

theorem eq_of_number_eq {p q : CodePoint} (h : p.number = q.number) : p = q := by
  cases p with
  | scalar c =>
    cases q with
    | scalar d => exact congrArg scalar (Char.toNat_inj.mp h)
    | surrogate offset => exact absurd h (number_scalar_ne c offset)
  | surrogate offset =>
    cases q with
    | scalar d => exact absurd h.symm (number_scalar_ne d offset)
    | surrogate offset' =>
      simp only [number, Nat.add_left_cancel_iff] at h
      exact congrArg surrogate (Fin.ext h)

end CodePoint

namespace Text

theorem cons_le_cons {p q : CodePoint} {s t : Text} :
    le (p :: s) (q :: t) = true ↔ p.number < q.number ∨ p = q ∧ le s t = true := by
  simp only [le, Bool.or_eq_true, Bool.and_eq_true, decide_eq_true_eq, beq_iff_eq]
  refine or_congr Iff.rfl (and_congr_left fun _ => ⟨CodePoint.eq_of_number_eq, ?_⟩)
  rintro rfl
  rfl

theorem le_trans {s t u : Text} (hst : le s t = true) (htu : le t u = true) : le s u = true := by
  induction s generalizing t u with
  | nil => rfl
  | cons p s ih =>
    cases t with
    | nil => cases hst
    | cons q t =>
      cases u with
      | nil => cases htu
      | cons r u =>
        rw [cons_le_cons] at hst htu ⊢
        rcases hst with hpq | ⟨rfl, hst⟩
        · rcases htu with hqr | ⟨rfl, -⟩
          · exact .inl (Nat.lt_trans hpq hqr)
          · exact .inl hpq
        · rcases htu with hpr | ⟨rfl, htu⟩
          · exact .inl hpr
          · exact .inr ⟨rfl, ih hst htu⟩

theorem le_total (s t : Text) : (le s t || le t s) = true := by
  rw [Bool.or_eq_true]
  induction s generalizing t with
  | nil => exact .inl rfl
  | cons p s ih =>
    cases t with
    | nil => exact .inr rfl
    | cons q t =>
      rw [cons_le_cons, cons_le_cons]
      rcases Nat.lt_trichotomy p.number q.number with hLt | hEq | hGt
      · exact .inl (.inl hLt)
      · obtain rfl := CodePoint.eq_of_number_eq hEq
        exact (ih t).imp (fun h => .inr ⟨rfl, h⟩) fun h => .inr ⟨rfl, h⟩
      · exact .inr (.inl hGt)

theorem le_antisymm {s t : Text} (hst : le s t = true) (hts : le t s = true) : s = t := by
  induction s generalizing t with
  | nil =>
    cases t with
    | nil => rfl
    | cons q t => cases hts
  | cons p s ih =>
    cases t with
    | nil => cases hst
    | cons q t =>
      rw [cons_le_cons] at hst hts
      rcases hst with hpq | ⟨rfl, hst⟩
      · rcases hts with hqp | ⟨rfl, -⟩
        · exact absurd hqp (Nat.lt_asymm hpq)
        · exact absurd hpq (Nat.lt_irrefl _)
      · rcases hts with hpp | ⟨-, hts⟩
        · exact absurd hpp (Nat.lt_irrefl _)
        · rw [ih hst hts]

end Text

namespace Keyed

variable {α : Type}

theorem pairwise_sortByKey (o : Keyed α) :
    (o.mergeSort fun a b => Text.le a.1 b.1).Pairwise fun a b => Text.le a.1 b.1 = true := by
  have hTrans : ∀ a b c : Text × α, Text.le a.1 b.1 = true → Text.le b.1 c.1 = true →
      Text.le a.1 c.1 = true := fun _ _ _ => Text.le_trans
  have hTotal : ∀ a b : Text × α, (Text.le a.1 b.1 || Text.le b.1 a.1) = true :=
    fun a b => Text.le_total a.1 b.1
  exact List.pairwise_mergeSort hTrans hTotal o

/-- Entries that are sorted by distinct keys are in strictly increasing order. -/
theorem increasing_sortByKey {o : Keyed α} (hDistinct : o.keys.Nodup) :
    (o.mergeSort fun a b => Text.le a.1 b.1).Pairwise fun a b =>
      Text.le a.1 b.1 = true ∧ a.1 ≠ b.1 := by
  have hPerm : (o.mergeSort fun a b => Text.le a.1 b.1).Perm o := List.mergeSort_perm o _
  have hNodup := (hPerm.map Prod.fst).nodup_iff.mpr hDistinct
  exact (pairwise_sortByKey o).and (List.pairwise_map.mp hNodup)

/-- With distinct keys, equal look-ups give equal entries when these are sorted by key. -/
theorem sortByKey_eq_of_get?_eq {o o' : Keyed α} (hDistinct : o.keys.Nodup)
    (hDistinct' : o'.keys.Nodup) (h : ∀ key, o.get? key = o'.get? key) :
    (o.mergeSort fun a b => Text.le a.1 b.1) = o'.mergeSort fun a b => Text.le a.1 b.1 := by
  have hPerm : (o.mergeSort fun a b => Text.le a.1 b.1).Perm
      (o'.mergeSort fun a b => Text.le a.1 b.1) := by
    refine (List.mergeSort_perm o _).trans ?_
    exact (perm_of_get?_eq hDistinct hDistinct' h).trans (List.mergeSort_perm o' _).symm
  refine hPerm.eq_of_pairwise ?_ (pairwise_sortByKey o) (pairwise_sortByKey o')
  -- entries with the same key are the same entry, as it is found by a look-up
  rintro ⟨key, v⟩ ⟨key', v'⟩ hMem hMem' hLe hGe
  obtain rfl : key = key' := Text.le_antisymm hLe hGe
  have hGet := (mem_iff_get?_eq_some hDistinct).mp (List.mem_mergeSort.mp hMem)
  have hGet' := (mem_iff_get?_eq_some hDistinct').mp (List.mem_mergeSort.mp hMem')
  rw [← h, hGet] at hGet'
  rw [Option.some.inj hGet']

end Keyed

end OscMonitor
