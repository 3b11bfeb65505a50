import OscMonitor.Text.Wrap

/-!
# What wrapped text is made of

Wrapping a text drops blanks and makes spaces of others, and breaks it where it likes; but it makes
up nothing else. So every code point of a wrapped line is a space or was in the text.

* `Text.mem_singleSpaced` — the code points of a text with single spaces.
* `Text.mem_of_mem_wrap` — the code points of wrapped lines.
-/

namespace OscMonitor.Text

theorem mem_of_mem_trim {q : CodePoint → Bool} {t : Text} {p : CodePoint} (h : p ∈ t.trim q) :
    p ∈ t := by
  have hEnd := List.mem_reverse.mp ((List.dropWhile_sublist q).mem (List.mem_reverse.mp h))
  exact (List.dropWhile_sublist q).mem hEnd

theorem mem_of_mem_collapse {t : Text} {p : CodePoint} {after : Bool}
    (h : p ∈ singleSpaced.collapse after t) : p ∈ t ∨ p = .scalar ' ' := by
  induction t generalizing after with
  | nil => cases h
  | cons q t ih =>
    have hLater : ∀ {after}, p ∈ singleSpaced.collapse after t → p ∈ q :: t ∨ p = .scalar ' ' :=
      fun hp => (ih hp).imp_left (List.mem_cons_of_mem q)
    rw [singleSpaced.collapse] at h
    split at h
    · split at h
      · exact hLater h
      · rcases List.mem_cons.mp h with rfl | h
        · exact .inr rfl
        · exact hLater h
    · rcases List.mem_cons.mp h with rfl | h
      · exact .inl List.mem_cons_self
      · exact hLater h

/-- Only spaces are made up where spaces are put together. -/
theorem mem_singleSpaced {t : Text} {p : CodePoint} (h : p ∈ t.singleSpaced) :
    p ∈ t ∨ p = .scalar ' ' := mem_of_mem_collapse (mem_of_mem_trim h)

theorem flatten_subset {s t : List Text} (h : s ⊆ t) : s.flatten ⊆ t.flatten := by
  intro p hp
  obtain ⟨piece, hPiece, hp⟩ := List.mem_flatten.mp hp
  exact List.mem_flatten.mpr ⟨piece, h hPiece, hp⟩

theorem dropBlankStart_subset (ts : List Text) : dropBlankStart ts ⊆ ts := by
  cases ts with
  | nil => exact List.Subset.refl _
  | cons piece rest =>
    rw [dropBlankStart]
    split
    · exact List.subset_cons_self _ _
    · exact List.Subset.refl _

theorem dropBlankEnd_subset (ts : List Text) : dropBlankEnd ts ⊆ ts := by
  unfold dropBlankEnd
  split
  · exact List.dropLast_subset ts
  · exact List.Subset.refl _

/-- What a line takes is taken from the pieces, and so is what it leaves. -/
theorem takeLine_subset (width : Nat) (ts : List Text) :
    (takeLine width ts).1.flatten ⊆ ts.flatten ∧ (takeLine width ts).2.flatten ⊆ ts.flatten := by
  have hWhole := takeFitting_append width ts
  unfold takeLine
  generalize takeFitting width ts = fitting at hWhole
  obtain ⟨line, left⟩ := fitting
  dsimp only at hWhole ⊢
  rw [← hWhole, List.flatten_append]
  cases left with
  | nil => exact ⟨List.subset_append_left _ _, List.subset_append_right _ _⟩
  | cons piece rest =>
    dsimp only
    split
    · -- a piece that is too long is cut in two
      rw [List.flatten_append, List.flatten_singleton, List.flatten_cons, List.flatten_cons]
      have hFront : ∀ n, piece.take n ⊆ piece ++ rest.flatten := fun n p hp =>
        List.mem_append_left _ (List.mem_of_mem_take hp)
      have hBack : ∀ n, piece.drop n ++ rest.flatten ⊆ piece ++ rest.flatten := fun n =>
        List.append_subset.mpr ⟨fun p hp => List.mem_append_left _ (List.mem_of_mem_drop hp),
          List.subset_append_right _ _⟩
      exact ⟨List.append_subset.mpr ⟨List.subset_append_left _ _,
          List.Subset.trans (hFront _) (List.subset_append_right _ _)⟩,
        List.Subset.trans (hBack _) (List.subset_append_right _ _)⟩
    · exact ⟨List.subset_append_left _ _, List.subset_append_right _ _⟩

/-- The lines of pieces are made of what the pieces are made of. -/
theorem subset_of_mem_wrapPieces {width : Nat} {ts : List Text} {line : Text}
    (hLine : line ∈ wrapPieces width ts) : line ⊆ ts.flatten := by
  fun_induction wrapPieces width ts with
  | case1 ts _ => cases hLine
  | case2 ts _ taken _ ih =>
    have hLeft := List.Subset.trans (takeLine_subset width _).2
      (flatten_subset (dropBlankStart_subset ts))
    exact List.Subset.trans (ih hLine) hLeft
  | case3 ts _ taken first others hTaken ih =>
    have hStart := flatten_subset (dropBlankStart_subset ts)
    rcases List.mem_cons.mp hLine with rfl | hLine
    · rw [← hTaken]
      exact List.Subset.trans (flatten_subset (dropBlankEnd_subset _))
        (List.Subset.trans (takeLine_subset width _).1 hStart)
    · exact List.Subset.trans (ih hLine) (List.Subset.trans (takeLine_subset width _).2 hStart)

/-- Every code point of a wrapped line is a space or was in the text. -/
theorem mem_of_mem_wrap {width : Nat} {t line : Text} (hLine : line ∈ t.wrap width)
    {p : CodePoint} (hp : p ∈ line) : p ∈ t ∨ p = .scalar ' ' := by
  have hPieces := subset_of_mem_wrapPieces hLine hp
  rw [flatten_pieces] at hPieces
  exact mem_singleSpaced hPieces

end OscMonitor.Text
