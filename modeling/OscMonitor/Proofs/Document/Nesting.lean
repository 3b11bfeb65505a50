import OscMonitor.Document.Reader
import OscMonitor.Proofs.Document.Extent

/-!
# Nesting of a document

Whether brackets are open at a place of a text can be told from the code points before it alone:
brackets count outside of quotes, and a backslash within them takes the next code point with it.
The reader agrees with that count, so a text that it reads as a list or an object closes its
first bracket only at its last one. No text like that begins another.

* `after_scan` — a text that is read leaves no bracket open.
* `lacks_gaps_of_closed` — while a bracket is open, nothing but gaps follows a place where none is.
* `run_scan_induction` — the induction for a text that is read, token by token.
* `lacks_gaps_of_read` — when a text reads as a list or an object and its beginning reads too, only
  gaps are missing from the beginning.
-/

namespace OscMonitor

open Lexeme

/-- Where a place of a text stands, with the number of brackets that are open there: outside of
quotes, within them, or within them right after a backslash. -/
inductive Nesting where
  | outside (depth : Nat)
  | quoted (depth : Nat)
  | escaped (depth : Nat)
  deriving DecidableEq, Repr

namespace Nesting

/-- The place after one more code point. -/
def step : Nesting → CodePoint → Nesting
  | outside depth, p =>
    if p = .scalar '"' then quoted depth
    else if p = .scalar '[' ∨ p = .scalar '{' then outside (depth + 1)
    else if p = .scalar ']' ∨ p = .scalar '}' then outside (depth - 1)
    else outside depth
  | quoted depth, p =>
    if p = .scalar '"' then outside depth
    else if p = .scalar '\\' then escaped depth
    else quoted depth
  | escaped depth, _ => quoted depth

/-- The place after a text. -/
def after (n : Nesting) (t : Text) : Nesting := t.foldl step n

@[simp] theorem after_nil (n : Nesting) : n.after [] = n := rfl

@[simp] theorem after_cons (n : Nesting) (p : CodePoint) (t : Text) :
    n.after (p :: t) = (n.step p).after t := rfl

@[simp] theorem after_append (n : Nesting) (t u : Text) :
    n.after (t ++ u) = (n.after t).after u := List.foldl_append

theorem step_of_isPlain {p : CodePoint} (h : isPlain p = true) (depth : Nat) :
    (outside depth).step p = outside depth := by
  simp only [isPlain, Bool.and_eq_true, Bool.not_eq_true', Bool.or_eq_false_iff,
    beq_eq_false_iff_ne] at h
  obtain ⟨-, ⟨⟨⟨hQuote, hOpen⟩, hClose⟩, hOpen'⟩, hClose'⟩ := h
  simp only [step]
  rw [if_neg hQuote, if_neg (not_or.mpr ⟨hOpen, hOpen'⟩), if_neg (not_or.mpr ⟨hClose, hClose'⟩)]

theorem after_of_isPlain {w : Text} (h : ∀ p ∈ w, isPlain p = true) (depth : Nat) :
    (outside depth).after w = outside depth := by
  induction w with
  | nil => rfl
  | cons p w ih =>
    rw [after_cons, step_of_isPlain (h p (List.mem_cons_self ..)),
      ih fun q hq => h q (List.mem_cons_of_mem _ hq)]

theorem isPlain_of_isGap {p : CodePoint} (h : isGap p = true) : isPlain p = true := by
  simp only [isGap, Bool.or_eq_true, beq_iff_eq] at h
  obtain ((rfl | rfl) | rfl) | rfl := h <;> decide

/-- What stands between quotes does not leave them. -/
theorem after_of_literal {w : Text} (h : Literal w) (depth : Nat) :
    (quoted depth).after w = quoted depth := by
  induction h with
  | nil => rfl
  | plain hQuote hBackslash _ ih => simp [step, hQuote, hBackslash, ih]
  | escaped _ ih => simp [step, ih]

/-- No beginning of what stands between quotes leaves them. -/
theorem ne_outside_of_literal {w u : Text} (h : Literal w) (hu : u <+: w) (depth e : Nat) :
    (quoted depth).after u ≠ outside e := by
  induction h generalizing u with
  | nil =>
    rw [List.prefix_nil.mp hu]
    simp
  | @plain p w hQuote hBackslash _ ih =>
    rcases List.prefix_cons_iff.mp hu with rfl | ⟨v, rfl, hv⟩
    · simp
    · simpa [step, hQuote, hBackslash] using ih hv
  | @escaped p w _ ih =>
    -- the beginning may end before the escape, within it, or after it
    rcases List.prefix_cons_iff.mp hu with rfl | ⟨v, rfl, hv⟩
    · simp
    rcases List.prefix_cons_iff.mp hv with rfl | ⟨v', rfl, hv'⟩
    · simp [step]
    · simpa [step] using ih hv'

end Nesting

/-! ## Nesting and tokens -/

/-- The number of open brackets after a token. -/
def Token.depth : Token → Nat → Nat
  | .openList, depth | .openObject, depth => depth + 1
  | .closeList, depth | .closeObject, depth => depth - 1
  | _, depth => depth

namespace Nesting

/-- The spelling of a token opens and closes what the token does. -/
theorem after_of_spelled {token : Token} {w : Text} (h : Spelled token w) (depth : Nat) :
    (outside depth).after w = outside (token.depth depth) := by
  cases h with
  | text hLiteral =>
    rw [after_cons, after_append]
    show ((quoted depth).after _).after _ = _
    rw [after_of_literal hLiteral]
    rfl
  | scalar hLeaf hPlain => exact after_of_isPlain hPlain depth
  | _ => rfl

/-- Before a token is complete, nothing is opened or closed. -/
theorem depth_eq_of_cut_token {token : Token} {w u : Text} (h : Spelled token w) (hu : u <+: w)
    (hne : u ≠ w) {depth e : Nat} (hOutside : (outside depth).after u = outside e) : e = depth := by
  -- a bracket or separator is cut off only when nothing is left of it
  have hSingle : ∀ p, w = [p] → e = depth := by
    rintro p rfl
    rcases List.prefix_cons_iff.mp hu with rfl | ⟨v, rfl, hv⟩
    · exact (Nesting.outside.inj hOutside).symm
    · exact absurd (by rw [List.prefix_nil.mp hv]) hne
  cases h with
  | @text t w hLiteral =>
    -- only before the first quote and after the last is the beginning outside
    rcases List.prefix_cons_iff.mp hu with rfl | ⟨v, rfl, hv⟩
    · exact (Nesting.outside.inj hOutside).symm
    rcases List.prefix_concat_iff.mp hv with rfl | hv
    · exact absurd rfl hne
    · exact absurd hOutside (ne_outside_of_literal hLiteral hv depth e)
  | scalar hLeaf hPlain =>
    rw [after_of_isPlain fun p hp => hPlain p (hu.subset hp)] at hOutside
    exact (Nesting.outside.inj hOutside).symm
  | _ => exact hSingle _ rfl

end Nesting

/-! ## Nesting and the reader -/

namespace Reader.State

/-- The number of open brackets in a state of the reader. -/
def depth : State → Nat
  | value frames | after _ frames => frames.length
  | firstItem frames | firstName frames | name _ frames | colon _ _ frames => frames.length + 1

/-- Whether a value has been read or a bracket is open. -/
def Begun : State → Prop
  | value [] => False
  | _ => True

theorem takeValue_eq_ok {frames : List Frame} {l : Lexeme} {s : State}
    (h : takeValue frames l = .ok s) :
    l.token.IsGood ∧ s.depth = l.token.depth frames.length ∧ s.Begun := by
  unfold takeValue at h
  split at h
  case h_3 | h_4 =>
    -- an opening bracket, unless the limit is reached
    split at h
    · cases h
    · next hToken _ =>
      obtain rfl := Except.ok.inj h
      simp [hToken, Token.IsGood, Token.depth, depth, Begun]
  case h_1 hToken | h_2 hToken =>
    obtain rfl := Except.ok.inj h
    simp [hToken, Token.IsGood, Token.depth, depth, Begun]
  all_goals cases h

theorem takeName_eq_ok {before : Object} {frames : List Frame} {l : Lexeme} {s : State}
    (h : takeName before frames l = .ok s) :
    l.token.IsGood ∧ s.depth = l.token.depth (frames.length + 1) ∧ s.Begun := by
  unfold takeName at h
  split at h
  · next hToken =>
    obtain rfl := Except.ok.inj h
    simp [hToken, Token.IsGood, Token.depth, depth, Begun]
  all_goals cases h

/-- A step takes a token that can be read, and opens and closes what the token does. -/
theorem step_eq_ok {s s' : State} {l : Lexeme} (h : s.step l = .ok s') :
    l.token.IsGood ∧ s'.depth = l.token.depth s.depth ∧ s'.Begun := by
  unfold step at h
  split at h
  case h_1 => exact takeValue_eq_ok h
  case h_3 => exact takeValue_eq_ok h
  case h_5 => exact takeName_eq_ok h
  case h_6 => exact takeName_eq_ok h
  case h_12 => cases h
  all_goals
    next hToken =>
    obtain rfl := Except.ok.inj h
    simp [hToken, Token.IsGood, Token.depth, depth, Begun]

theorem run_cons_eq_ok_iff {s : State} {l : Lexeme} {rest : List Lexeme} {v : Value} :
    s.run (l :: rest) = .ok v ↔ ∃ s', s.step l = .ok s' ∧ s'.run rest = .ok v := by
  rw [run]
  cases s.step l <;> simp

theorem run_nil_eq_ok_iff {s : State} {v : Value} : s.run [] = .ok v ↔ s = .after v [] := by
  cases s with
  | after w frames => cases frames <;> simp [run]
  | _ => simp [run]

/-- Once the last bracket is closed, no token may follow. -/
theorem eq_nil_of_run {s : State} {ls : List Lexeme} {v : Value} (hBegun : s.Begun)
    (hDepth : s.depth = 0) (h : s.run ls = .ok v) : ls = [] := by
  cases ls with
  | nil => rfl
  | cons l rest =>
    obtain ⟨s', hStep, -⟩ := run_cons_eq_ok_iff.mp h
    cases s with
    | value frames =>
      obtain rfl := List.length_eq_zero_iff.mp hDepth
      exact hBegun.elim
    | after w frames =>
      obtain rfl := List.length_eq_zero_iff.mp hDepth
      simp [step] at hStep
    | _ => simp [depth] at hDepth

/-- The induction for a text that is read: it is at its end, or begins with a gap, or with the
spelling of a token that the reader takes. -/
@[elab_as_elim]
theorem run_scan_induction {v : Value}
    {motive : (s : State) → (t : Text) → s.run (Lexeme.scan t) = .ok v → Prop}
    (done : ∀ h, motive (.after v []) [] h)
    (gap : ∀ s p rest h, isGap p = true → ∀ hRest : s.run (Lexeme.scan rest) = .ok v,
      motive s rest hRest → motive s (p :: rest) h)
    (token : ∀ s s' token p w rest h, scanToken p (w ++ rest) = (token, rest) →
      Spelled token (p :: w) → s.step ⟨token, p :: (w ++ rest)⟩ = .ok s' →
      ∀ hRest : s'.run (Lexeme.scan rest) = .ok v,
      motive s' rest hRest → motive s (p :: (w ++ rest)) h)
    {s : State} {t : Text} (h : s.run (Lexeme.scan t) = .ok v) : motive s t h := by
  fun_induction Lexeme.scan t generalizing s with
  | case1 =>
    have hEnd : s.run [] = .ok v := by rwa [Lexeme.scan] at h
    obtain rfl := run_nil_eq_ok_iff.mp hEnd
    exact done h
  | case2 p rest hGap ih =>
    have hRest : s.run (Lexeme.scan rest) = .ok v := by rwa [Lexeme.scan, if_pos hGap] at h
    exact gap s p rest h hGap hRest (ih hRest)
  | case3 p rest hGap found =>
    rename_i ih
    have hFound : scanToken p rest = (found.1, found.2) := rfl
    have hCons : s.run (⟨found.1, p :: rest⟩ :: Lexeme.scan found.2) = .ok v := by
      rwa [Lexeme.scan, if_neg hGap] at h
    clear_value found
    obtain ⟨s', hStep, hRun⟩ := run_cons_eq_ok_iff.mp hCons
    obtain ⟨hGood, -, -⟩ := step_eq_ok hStep
    -- what the reader takes can be read, so it is spelled by what the scanner took
    obtain ⟨w, rfl, hSpelled⟩ := scanToken_spelled hFound hGood
    exact token s s' found.1 p w found.2 h hFound hSpelled hStep hRun (ih hRun)

/-- A value that stands in no container is the whole result. -/
theorem eq_of_run_after {v w : Value} {ls : List Lexeme} (h : (after v []).run ls = .ok w) :
    w = v := by
  have hBegun : (after v []).Begun := trivial
  rw [eq_nil_of_run hBegun rfl h] at h
  exact (after.inj (run_nil_eq_ok_iff.mp h)).1.symm

end Reader.State

open Reader

namespace Nesting

theorem isGap_of_scan_eq_nil {t : Text} (h : Lexeme.scan t = []) : ∀ p ∈ t, isGap p = true := by
  fun_induction Lexeme.scan t with
  | case1 => simp
  | case2 p rest hGap ih =>
    intro q hq
    rcases List.mem_cons.mp hq with rfl | hq
    · exact hGap
    · exact ih h q hq
  | case3 => cases h

/-- A text that is read closes all brackets that it opens. -/
theorem after_scan {s : State} {t : Text} {v : Value} (h : s.run (Lexeme.scan t) = .ok v) :
    (outside s.depth).after t = outside 0 := by
  induction h using State.run_scan_induction with
  | done => rfl
  | gap s p rest _ hGap _ ih =>
    rw [after_cons, step_of_isPlain (isPlain_of_isGap hGap)]
    exact ih
  | token s s' token p w rest _ _ hSpelled hStep _ ih =>
    obtain ⟨-, hDepth, -⟩ := State.step_eq_ok hStep
    rw [← List.cons_append, after_append, after_of_spelled hSpelled]
    rw [hDepth] at ih
    exact ih

/-- Of a text that is read while a bracket is open, a beginning that leaves none open lacks
nothing but gaps. -/
theorem lacks_gaps_of_closed {s : State} {t u : Text} {v : Value} (hOpen : 0 < s.depth)
    (h : s.run (Lexeme.scan t) = .ok v) (hu : u <+: t)
    (hClosed : (outside s.depth).after u = outside 0) :
    ∃ gaps, t = u ++ gaps ∧ ∀ p ∈ gaps, isGap p = true := by
  induction h using State.run_scan_induction generalizing u with
  | done => exact absurd hOpen (Nat.lt_irrefl 0)
  | gap s p rest _ hGap _ ih =>
    obtain rfl | ⟨u', rfl, hu'⟩ := List.prefix_cons_iff.mp hu
    · exact absurd (Nesting.outside.inj hClosed) (Nat.ne_of_gt hOpen)
    rw [after_cons, step_of_isPlain (isPlain_of_isGap hGap)] at hClosed
    obtain ⟨gaps, rfl, hGaps⟩ := ih hOpen hu' hClosed
    exact ⟨gaps, rfl, hGaps⟩
  | token s s' token p w rest _ _ hSpelled hStep hRun ih =>
    obtain ⟨-, hDepth, hBegun⟩ := State.step_eq_ok hStep
    rw [← List.cons_append] at hu ⊢
    by_cases hWhole : p :: w <+: u
    · -- the token is complete: the beginning goes on after it
      obtain ⟨u', rfl⟩ := hWhole
      have hu' : u' <+: rest := (List.prefix_append_right_inj _).mp hu
      rw [after_append, after_of_spelled hSpelled, ← hDepth] at hClosed
      rcases Nat.eq_zero_or_pos s'.depth with hLast | hOpen'
      · -- it closed the last bracket, so no token follows
        have hEnd := State.eq_nil_of_run hBegun hLast hRun
        obtain ⟨gaps, hGaps⟩ := hu'
        refine ⟨gaps, by rw [← hGaps, List.append_assoc], fun q hq => ?_⟩
        exact isGap_of_scan_eq_nil hEnd q (hGaps ▸ List.mem_append_right _ hq)
      · obtain ⟨gaps, hRest, hGaps⟩ := ih hOpen' hu' hClosed
        exact ⟨gaps, by rw [hRest, List.append_assoc], hGaps⟩
    · -- the token is cut off: the bracket that was open before it still is
      have hCut : u <+: p :: w := by
        rcases List.prefix_or_prefix_of_prefix hu (List.prefix_append (p :: w) rest) with h | h
        · exact h
        · exact absurd h hWhole
      have hne : u ≠ p :: w := by
        rintro rfl
        exact hWhole (List.prefix_refl _)
      exact absurd (depth_eq_of_cut_token hSpelled hCut hne hClosed) (Nat.ne_of_lt hOpen)

/-- A text that reads as a list or an object begins, after gaps, with a bracket, and so does any
beginning of it that reads at all; what follows the bracket is read while it is open. -/
theorem opening_bracket {t u : Text} {v w : Value} (hContainer : ¬ v.IsLeaf)
    (ht : (State.value []).run (Lexeme.scan t) = .ok v) (hu : u <+: t)
    (hRead : (State.value []).run (Lexeme.scan u) = .ok w) :
    ∃ (begun tail tail' : Text) (s : State), t = begun ++ tail ∧ u = begun ++ tail' ∧
      s.depth = 1 ∧ s.run (Lexeme.scan tail) = .ok v ∧ s.run (Lexeme.scan tail') = .ok w := by
  fun_induction Lexeme.scan t generalizing u with
  | case1 => cases ht
  | case2 p rest hGap ih =>
    obtain rfl | ⟨u', rfl, hu'⟩ := List.prefix_cons_iff.mp hu
    · rw [Lexeme.scan] at hRead
      cases hRead
    rw [Lexeme.scan, if_pos hGap] at hRead
    obtain ⟨begun, tail, tail', s, rfl, rfl, hs⟩ := ih ht hu' hRead
    exact ⟨p :: begun, tail, tail', s, rfl, rfl, hs⟩
  | case3 p rest hGap found =>
    rename_i ih
    have hFound : scanToken p rest = (found.1, found.2) := rfl
    clear_value found
    obtain ⟨s', hStep, hRun⟩ := State.run_cons_eq_ok_iff.mp ht
    obtain ⟨hGood, -, -⟩ := State.step_eq_ok hStep
    obtain ⟨spelling, hSpelling, hSpelled⟩ := scanToken_spelled hFound hGood
    obtain rfl | ⟨u', rfl, hu'⟩ := List.prefix_cons_iff.mp hu
    · rw [Lexeme.scan] at hRead
      cases hRead
    rw [Lexeme.scan, if_neg hGap] at hRead
    obtain ⟨s'', hStep', hRun'⟩ := State.run_cons_eq_ok_iff.mp hRead
    obtain ⟨token, rest'⟩ := found
    -- only a bracket can begin a container, and it stands in the beginning as well
    cases hSpelled with
    | openList | openObject =>
      obtain rfl := Except.ok.inj hStep
      obtain rfl := Except.ok.inj hStep'
      exact ⟨[_], rest', u', _, by rw [hSpelling]; rfl, rfl, rfl, hRun, hRun'⟩
    | text hLiteral =>
      obtain rfl := Except.ok.inj hStep
      exact absurd (State.eq_of_run_after hRun ▸ trivial) hContainer
    | scalar hLeaf hPlain =>
      obtain rfl := Except.ok.inj hStep
      exact absurd (State.eq_of_run_after hRun ▸ hLeaf) hContainer
    | _ => cases hStep

/-- Of a text that reads as a list or an object, a beginning that reads lacks nothing but gaps. -/
theorem lacks_gaps_of_read {t u : Text} {v w : Value} (hContainer : ¬ v.IsLeaf)
    (ht : Value.read t = .ok v) (hu : u <+: t) (hRead : Value.read u = .ok w) :
    ∃ gaps, t = u ++ gaps ∧ ∀ p ∈ gaps, isGap p = true := by
  -- what reads has no byte order mark, so the machine runs on it
  have hRun : ∀ {t : Text} {v : Value}, Value.read t = .ok v →
      (State.value []).run (Lexeme.scan t) = .ok v := by
    intro t v h
    unfold Value.read at h
    split at h
    · cases h
    · exact h
  obtain ⟨begun, tail, tail', s, rfl, rfl, hDepth, hTail, hTail'⟩ :=
    opening_bracket hContainer (hRun ht) hu (hRun hRead)
  obtain ⟨gaps, rfl, hGaps⟩ := lacks_gaps_of_closed (by omega) hTail
    ((List.prefix_append_right_inj _).mp hu) (after_scan hTail')
  exact ⟨gaps, by rw [List.append_assoc], hGaps⟩

end Nesting

end OscMonitor
