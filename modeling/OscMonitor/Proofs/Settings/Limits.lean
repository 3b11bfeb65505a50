import OscMonitor.Proofs.Number.Value
import OscMonitor.Network.Basic

/-!
# Limits of no time

A time limit that is zero or negative stands for none. That is said here once more, by what a number
of seconds is and not by how it is compared with zero: a double may be positive, zero or negative,
or no number at all, and then it is neither, so such a limit stays as it is.

* `Seconds.IsPositive`, `Seconds.IsNonpositive` — the two sorts of numbers.
* `Seconds.Limits` — what a limit that is asked for comes to.
* `Seconds.limits_iff` — that is its normal form.
-/

namespace OscMonitor

namespace Seconds

/-- A number of seconds above zero. -/
def IsPositive : Seconds → Prop
  | whole n => 0 < n
  | real x => x.IsPositive

/-- A number of seconds that is zero or below. -/
def IsNonpositive : Seconds → Prop
  | whole n => n ≤ 0
  | real x => x.IsNonpositive

/-- What is set on a socket for a limit that was asked for. -/
inductive Limits : Seconds → Timeout → Prop where
  | blocking {s : Seconds} (h : s.IsNonpositive) : Limits s none
  | positive {s : Seconds} (h : s.IsPositive) : Limits s (some s)
  | notNumber : Limits (.real .nan) (some (.real .nan))

theorem nonpositive_iff {s : Seconds} : s.nonpositive = true ↔ s.IsNonpositive := by
  match s with
  | whole n => exact decide_eq_true_iff
  | real x => exact Double.nonpositive_iff

theorem nonpositive_eq_false_iff {s : Seconds} :
    s.nonpositive = false ↔ s = .real .nan ∨ s.IsPositive := by
  match s with
  | whole n =>
    rw [nonpositive, IsPositive, decide_eq_false_iff_not]
    have hOrder : ¬ n ≤ 0 ↔ 0 < n := by omega
    simp [hOrder]
  | real x => simp [nonpositive, IsPositive, Double.nonpositive_eq_false_iff]

theorem normalize_of_nonpositive {s : Seconds} (h : s.nonpositive = true) :
    Timeout.normalize (some s) = none := by
  simp [Timeout.normalize, h]

theorem normalize_of_not_nonpositive {s : Seconds} (h : s.nonpositive = false) :
    Timeout.normalize (some s) = some s := by
  simp [Timeout.normalize, h]

theorem limits_normalize (s : Seconds) : s.Limits (Timeout.normalize (some s)) := by
  match h : s.nonpositive with
  | true =>
    rw [normalize_of_nonpositive h]
    exact .blocking (nonpositive_iff.mp h)
  | false =>
    rw [normalize_of_not_nonpositive h]
    rcases nonpositive_eq_false_iff.mp h with rfl | hPositive
    · exact .notNumber
    · exact .positive hPositive

/-- What a limit comes to is its normal form. -/
theorem limits_iff {s : Seconds} {t : Timeout} : s.Limits t ↔ t = Timeout.normalize (some s) := by
  constructor
  · intro h
    cases h with
    | blocking h => rw [normalize_of_nonpositive (nonpositive_iff.mpr h)]
    | positive h => rw [normalize_of_not_nonpositive (nonpositive_eq_false_iff.mpr (.inr h))]
    | notNumber => rfl
  · rintro rfl
    exact s.limits_normalize

end Seconds

end OscMonitor
