import OscMonitor.Proofs.Document.Nesting

/-!
# The depth of a document

How many brackets are open at once, at most, within a text. Of a text that is read it is also the
greatest number of containers that the reader had open, so it stays within the limit of the reader.

* `Nesting.peak` — the greatest number of open brackets within a text.
* `peak_of_spelled` — a token opens no more brackets than the ones around it and its own.
* `nesting_le_of_read` — what nests more deeply than the reader allows is not read.
-/

namespace OscMonitor

open Lexeme

namespace Nesting

/-- The number of brackets that are open at a place. -/
def depth : Nesting → Nat
  | outside depth | quoted depth | escaped depth => depth

/-- The greatest number of brackets that are open from a place on. -/
def peak (n : Nesting) : Text → Nat
  | [] => n.depth
  | p :: t => max n.depth ((n.step p).peak t)

@[simp] theorem peak_nil (n : Nesting) : n.peak [] = n.depth := rfl

@[simp] theorem peak_cons (n : Nesting) (p : CodePoint) (t : Text) :
    n.peak (p :: t) = max n.depth ((n.step p).peak t) := rfl

theorem depth_le_peak (n : Nesting) (t : Text) : n.depth ≤ n.peak t := by
  cases t with
  | nil => exact Nat.le_refl _
  | cons p t => exact Nat.le_max_left _ _

theorem peak_append (n : Nesting) (t u : Text) :
    n.peak (t ++ u) = max (n.peak t) ((n.after t).peak u) := by
  induction t generalizing n with
  | nil => exact (Nat.max_eq_right (depth_le_peak n u)).symm
  | cons p t ih => rw [List.cons_append, peak_cons, ih, peak_cons, after_cons, Nat.max_assoc]

theorem peak_of_isPlain {w : Text} (h : ∀ p ∈ w, isPlain p = true) (d : Nat) :
    (outside d).peak w = d := by
  induction w with
  | nil => rfl
  | cons p w ih =>
    rw [peak_cons, step_of_isPlain (h p List.mem_cons_self),
      ih fun q hq => h q (List.mem_cons_of_mem _ hq)]
    exact Nat.max_self d

/-- What stands between quotes opens nothing. -/
theorem peak_of_literal {w : Text} (h : Literal w) (d : Nat) : (quoted d).peak w = d := by
  induction h with
  | nil => rfl
  | plain hQuote hBackslash _ ih => simp [step, hQuote, hBackslash, ih, depth]
  | escaped _ ih => simp [step, ih, depth]

/-- A token opens no more brackets than the ones around it and its own. -/
theorem peak_of_spelled {token : Token} {w : Text} (h : Spelled token w) (d : Nat) :
    (outside d).peak w = max d (token.depth d) := by
  cases h with
  | text hLiteral =>
    rw [peak_cons, peak_append]
    show max d (max ((quoted d).peak _) (((quoted d).after _).peak _)) = _
    rw [peak_of_literal hLiteral, after_of_literal hLiteral]
    simp [step, depth, Token.depth]
  | scalar hLeaf hPlain => simp [peak_of_isPlain hPlain, Token.depth]
  | _ => simp [step, depth, Token.depth]

end Nesting

/-- The greatest number of brackets that are open at once within a text. -/
def Text.nesting (t : Text) : Nat := (Nesting.outside 0).peak t

/-! ## The limit of the reader -/

namespace Reader.State

variable {s s' : State} {l : Lexeme}

theorem takeValue_depth_le {frames : List Frame} (h : takeValue frames l = .ok s)
    (hFrames : frames.length ≤ depthLimit) : s.depth ≤ depthLimit := by
  unfold takeValue at h
  split at h
  case h_1 | h_2 =>
    obtain rfl := Except.ok.inj h
    exact hFrames
  case h_3 | h_4 =>
    -- a bracket is opened only below the limit
    split at h
    · cases h
    · next hLimit =>
      obtain rfl := Except.ok.inj h
      exact Nat.lt_of_not_le hLimit
  all_goals cases h

/-- The reader keeps no more containers open than its limit. -/
theorem step_depth_le (h : s.step l = .ok s') (hs : s.depth ≤ depthLimit) :
    s'.depth ≤ depthLimit := by
  unfold step at h
  split at h
  case h_1 => exact takeValue_depth_le h hs
  case h_3 => exact takeValue_depth_le h hs
  case h_5 | h_6 =>
    -- a name opens nothing
    unfold takeName at h
    split at h
    · obtain rfl := Except.ok.inj h
      exact hs
    all_goals cases h
  case h_12 => cases h
  all_goals
    obtain rfl := Except.ok.inj h
    simp only [depth, List.length_cons] at hs ⊢
    omega

/-- What is read opens no more brackets than the reader allows. -/
theorem peak_le_of_run_scan {t : Text} {v : Value} (hs : s.depth ≤ depthLimit)
    (h : s.run (Lexeme.scan t) = .ok v) : (Nesting.outside s.depth).peak t ≤ depthLimit := by
  induction h using run_scan_induction with
  | done => exact hs
  | gap s p rest _ hGap _ ih =>
    rw [Nesting.peak_cons, Nesting.step_of_isPlain (Nesting.isPlain_of_isGap hGap)]
    exact Nat.max_le.mpr ⟨hs, ih hs⟩
  | token s s' token p w rest _ _ hSpelled hStep _ ih =>
    obtain ⟨-, hDepth, -⟩ := step_eq_ok hStep
    have hNext := step_depth_le hStep hs
    have hRest := ih hNext
    rw [hDepth] at hRest hNext
    rw [← List.cons_append, Nesting.peak_append, Nesting.peak_of_spelled hSpelled,
      Nesting.after_of_spelled hSpelled]
    exact Nat.max_le.mpr ⟨Nat.max_le.mpr ⟨hs, hNext⟩, hRest⟩

end Reader.State

/-- What nests more deeply than the reader allows is not read. -/
theorem Text.nesting_le_of_read {t : Text} {v : Value} (h : Value.read t = .ok v) :
    t.nesting ≤ Reader.depthLimit := by
  rw [Value.read] at h
  split at h
  · cases h
  · exact Reader.State.peak_le_of_run_scan (s := .value []) (Nat.zero_le _) h

end OscMonitor
