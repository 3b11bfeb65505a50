import OscMonitor.CommandLine.Run
import OscMonitor.Proofs.Document.Ascii
import OscMonitor.Proofs.Report.Limits
import OscMonitor.Proofs.Text.Wrap

/-!
# When there is help

The help describes every option by a template that holds what the settings say, and of those only
the level of the log is any text at all. So the level decides. There is help exactly when the
template with the level in it can be filled, and the output takes the help when it takes that
template as it is filled, since the rest is ASCII. A level without a percent sign is always filled;
of those with one, `50%` is not, but `50%%` and `%(prog)s` are.

* `Help.levelDescription?` is the description of the level, filled.
* `exists_help_iff` — there is help exactly when there is that description.
* `takes_help` — the output takes the help when it takes that description.
* `exists_help_of_plain` — both hold for a level without a percent sign that the output takes.
-/

namespace OscMonitor.CommandLine

/-! ## Templates without places -/

/-- A template without a percent sign is written as it stands. -/
theorem Template.fillFrom_eq {properties : Object} {t : Text} (h : CodePoint.scalar '%' ∉ t)
    (position : Nat) (written : Text) (v : Option Value) :
    fillFrom properties position ⟨written, v, .text⟩ t = .ok (written ++ t) := by
  induction t generalizing position written with
  | nil =>
    rw [List.append_nil]
    rfl
  | cons p t ih =>
    obtain ⟨hp, ht⟩ := not_or.mp (mt List.mem_cons.mpr h)
    have hStep : step properties position ⟨written, v, .text⟩ p =
        .ok ⟨written ++ [p], v, .text⟩ := if_neg (Ne.symm hp)
    rw [fillFrom, hStep]
    dsimp only
    rw [ih ht, List.append_assoc, List.singleton_append]

theorem Text.not_mem_percent_of_isWord {t : Text} (h : t.IsWord) : CodePoint.scalar '%' ∉ t :=
  fun hMem => absurd (h _ hMem).1 (by decide)

theorem Settings.isWord_timeoutText (t : Timeout) : (Settings.timeoutText t).IsWord := by
  cases t with
  | none => exact show Text.IsWord "None" by decide
  | some s =>
    cases s with
    | whole n => exact Text.isWord_ofInt n
    | real x => exact Double.isWord_text x

theorem Settings.isWord_formatName (f : Log.Format) : f.name.IsWord := by
  cases f <;> decide

/-! ## Descriptions -/

namespace Help

variable {s : Settings}

/-- The description of the level of the log, filled, if it can be. -/
def levelDescription? (s : Settings) : Except TemplateFault Text :=
  Template.fill (properties s .logLevel) (description s .logLevel)

/-- Only the level of the log can put a percent sign into a description, or what is not ASCII. -/
theorem description_plain (s : Settings) {f : Flag} (hFlag : f ≠ .logLevel) :
    CodePoint.scalar '%' ∉ description s f ∧ (description s f).IsAscii := by
  -- a word of the settings stands between texts of the help
  have hAround : ∀ {before word after : Text},
      CodePoint.scalar '%' ∉ before ∧ before.IsAscii → word.IsWord →
        CodePoint.scalar '%' ∉ after ∧ after.IsAscii →
          CodePoint.scalar '%' ∉ before ++ word ++ after ∧ (before ++ word ++ after).IsAscii := by
    intro before word after hBefore hWord hAfter
    refine ⟨?_, ?_⟩
    · rw [List.mem_append, List.mem_append, not_or, not_or]
      exact ⟨⟨hBefore.1, Text.not_mem_percent_of_isWord hWord⟩, hAfter.1⟩
    · have hWordAscii : word.IsAscii := fun p hp => (hWord p hp).2.trans (by decide)
      exact List.forall_mem_append.mpr
        ⟨List.forall_mem_append.mpr ⟨hBefore.2, hWordAscii⟩, hAfter.2⟩
  cases f with
  | logLevel => exact absurd rfl hFlag
  | timeout =>
    exact hAround (by decide) (Settings.isWord_timeoutText s.socketTimeout) (by decide)
  | logFormat => exact hAround (by decide) (Settings.isWord_formatName s.logFormat) (by decide)
  | help | address | port | request | raw =>
    simp only [description]
    decide

/-- A description without a percent sign is shown as it stands. -/
theorem fill_description {f : Flag} (h : CodePoint.scalar '%' ∉ description s f) :
    Template.fill (properties s f) (description s f) = .ok (description s f) :=
  Template.fillFrom_eq h 0 [] _

/-- Every option but the level of the log can be described. -/
theorem exists_flagLines_iff {f : Flag} :
    (∃ lines, flagLines s f = .ok lines) ↔
      (f = .logLevel → ∃ t, levelDescription? s = .ok t) := by
  have hLines : (∃ lines, flagLines s f = .ok lines) ↔
      ∃ t, Template.fill (properties s f) (description s f) = .ok t := by
    unfold flagLines
    cases Template.fill (properties s f) (description s f) with
    | error fault => constructor <;> exact fun ⟨_, h⟩ => nomatch h
    | ok t => exact ⟨fun _ => ⟨t, rfl⟩, fun _ => ⟨_, rfl⟩⟩
  rw [hLines]
  -- of all descriptions only that of the level holds a text of the settings
  by_cases hFlag : f = .logLevel
  · subst hFlag
    exact ⟨fun h _ => h, fun h => h rfl⟩
  · exact ⟨fun _ h => absurd h hFlag, fun _ => ⟨_, fill_description (description_plain s hFlag).1⟩⟩

/-- The lines of an option are ASCII but for what its description holds. -/
theorem takes_flagLines {e : Encoding} {f : Flag} {lines : List Text}
    (hLines : flagLines s f = .ok lines)
    (hFilled : ∀ t, Template.fill (properties s f) (description s f) = .ok t → e.takes t = true) :
    ∀ line ∈ lines, e.takes line = true := by
  unfold flagLines at hLines
  cases hFill : Template.fill (properties s f) (description s f) with
  | error fault =>
    rw [hFill] at hLines
    cases hLines
  | ok t =>
    rw [hFill] at hLines
    obtain rfl := Except.ok.inj hLines
    -- the parts that do not come from the description are ASCII
    have hSpelled : e.takes ("  " ++ Text.join ", " (f.names.map (withPlaceholder f))) = true := by
      refine Encoding.takes_of_isAscii e ?_
      cases f <;> decide +kernel
    have hBlanks : ∀ n, e.takes (List.replicate n (.scalar ' ')) = true := fun n =>
      Encoding.takes_of_isAscii e fun p hp => by
        rw [List.eq_of_mem_replicate hp]
        decide
    -- wrapping puts spaces between words and adds nothing else
    have hWrapped : ∀ line ∈ t.wrap (columns - descriptionColumn), e.takes line = true := by
      intro line hLine
      refine Encoding.takes_iff.mpr fun p hp => ?_
      rcases Text.mem_of_mem_wrap hLine hp with hp | rfl
      · exact Encoding.takes_iff.mp (hFilled t hFill) p hp
      · exact e.ascii _ (by decide)
    have hIndented : ∀ {ts : List Text}, (∀ line ∈ ts, e.takes line = true) →
        ∀ line ∈ ts.map (spaces descriptionColumn ++ ·), e.takes line = true := by
      intro ts hts
      refine List.forall_mem_map.mpr fun line hLine => ?_
      rw [Encoding.takes_append, spaces, hBlanks, hts line hLine]
      rfl
    dsimp only
    -- a description begins beside the option if there is room, else on a line of its own
    split
    · cases hDescribed : t.wrap (columns - descriptionColumn) with
      | nil => exact List.forall_mem_singleton.mpr hSpelled
      | cons first rest =>
        rw [hDescribed] at hWrapped
        obtain ⟨hFirst, hRest⟩ := List.forall_mem_cons.mp hWrapped
        refine List.forall_mem_cons.mpr ⟨?_, hIndented hRest⟩
        rw [Encoding.takes_append, Text.padRight, Encoding.takes_append, hSpelled, hBlanks, hFirst]
        rfl
    · exact List.forall_mem_cons.mpr ⟨hSpelled, hIndented hWrapped⟩

end Help

/-! ## The whole help -/

/-- Lines can be written together when each of them can. -/
theorem Encoding.takes_lines {e : Encoding} {ts : List Text} (h : ∀ t ∈ ts, e.takes t = true) :
    e.takes (Text.lines ts) = true := by
  refine Encoding.takes_iff.mpr fun p hp => ?_
  obtain ⟨t, ht, hp⟩ := List.mem_flatMap.mp hp
  rcases List.mem_append.mp hp with hp | hp
  · exact Encoding.takes_iff.mp (h t ht) p hp
  · obtain rfl := List.mem_singleton.mp hp
    exact e.ascii _ (by decide)

theorem List.exists_of_mapM_eq_ok {α β ε : Type} {f : α → Except ε β} {items : List α}
    {results : List β} (h : items.mapM f = .ok results) {x : α} (hx : x ∈ items) :
    ∃ y, f x = .ok y := by
  -- the first failure would be that of the whole
  induction items generalizing results with
  | nil => cases hx
  | cons item items ih =>
    rw [List.mapM_cons] at h
    cases hItem : f item with
    | error fault =>
      rw [hItem] at h
      cases h
    | ok y =>
      cases hItems : items.mapM f with
      | error fault =>
        rw [hItem, hItems] at h
        cases h
      | ok ys =>
        rcases List.mem_cons.mp hx with rfl | hx
        · exact ⟨y, hItem⟩
        · exact ih hItems hx

/-- There is help exactly when every option can be described, and it is made of their lines. -/
theorem help_eq_ok_iff {s : Settings} {text : Text} :
    help s = .ok text ↔ ∃ lines : Flag → List Text, (∀ f, Help.flagLines s f = .ok (lines f)) ∧
      text = usage ++ Text.lines (Help.introduction ++ (Flag.all.map lines).flatten ++
        Help.actionLines) := by
  unfold help
  constructor
  · intro hText
    cases hAll : Flag.all.mapM (Help.flagLines s) with
    | error fault =>
      rw [hAll] at hText
      cases hText
    | ok parts =>
      -- the flags are all there are, so each of them has its lines
      have hLines : ∀ f, ∃ lines, Help.flagLines s f = .ok lines := by
        intro f
        have hMem : f ∈ Flag.all := by cases f <;> decide
        exact List.exists_of_mapM_eq_ok hAll hMem
      choose lines hLines using hLines
      obtain rfl : Flag.all.map lines = parts :=
        Except.ok.inj ((List.mapM_eq_ok fun f _ => hLines f).symm.trans hAll)
      rw [hAll] at hText
      exact ⟨lines, hLines, (Except.ok.inj hText).symm⟩
  · rintro ⟨lines, hLines, rfl⟩
    rw [List.mapM_eq_ok fun f _ => hLines f]
    rfl

/-- There is help exactly when the description of the level of the log can be filled. -/
theorem exists_help_iff {s : Settings} :
    (∃ text, help s = .ok text) ↔ ∃ t, Help.levelDescription? s = .ok t := by
  have hDescribed : (∃ text, help s = .ok text) ↔ ∀ f, ∃ lines, Help.flagLines s f = .ok lines := by
    constructor
    · rintro ⟨text, hText⟩ f
      obtain ⟨lines, hLines, -⟩ := help_eq_ok_iff.mp hText
      exact ⟨lines f, hLines f⟩
    · intro hLines
      choose lines hLines using hLines
      exact ⟨_, help_eq_ok_iff.mpr ⟨lines, hLines, rfl⟩⟩
  rw [hDescribed]
  exact ⟨fun h => Help.exists_flagLines_iff.mp (h .logLevel) rfl,
    fun h f => Help.exists_flagLines_iff.mpr fun _ => h⟩

/-- An output takes the help when it takes the description of the level, as it is filled. -/
theorem takes_help {s : Settings} {e : Encoding} {text : Text} (hText : help s = .ok text)
    (hLevel : ∀ t, Help.levelDescription? s = .ok t → e.takes t = true) : e.takes text = true := by
  obtain ⟨lines, hLines, rfl⟩ := help_eq_ok_iff.mp hText
  -- what stands around the options does not depend on the settings
  have hUsage : e.takes usage = true := by
    refine Encoding.takes_of_isAscii e ?_
    decide +kernel
  have hAround : ∀ line ∈ Help.introduction ++ Help.actionLines, e.takes line = true := by
    have hAscii : ∀ line ∈ Help.introduction ++ Help.actionLines, line.IsAscii := by decide +kernel
    exact fun line hLine => Encoding.takes_of_isAscii e (hAscii line hLine)
  have hOptions : ∀ line ∈ (Flag.all.map lines).flatten, e.takes line = true := by
    intro line hLine
    obtain ⟨_, hPart, hLine⟩ := List.mem_flatten.mp hLine
    obtain ⟨f, -, rfl⟩ := List.mem_map.mp hPart
    refine Help.takes_flagLines (hLines f) (fun t hFill => ?_) line hLine
    by_cases hFlag : f = .logLevel
    · subst hFlag
      exact hLevel t hFill
    · -- every other description is ASCII as it stands
      obtain ⟨hPercent, hAscii⟩ := Help.description_plain s hFlag
      obtain rfl := Except.ok.inj ((Help.fill_description hPercent).symm.trans hFill)
      exact Encoding.takes_of_isAscii e hAscii
  rw [Encoding.takes_append, hUsage, Bool.true_and]
  refine Encoding.takes_lines fun line hLine => ?_
  rcases List.mem_append.mp hLine with hLine | hLine
  · rcases List.mem_append.mp hLine with hLine | hLine
    · exact hAround line (List.mem_append_left _ hLine)
    · exact hOptions line hLine
  · exact hAround line (List.mem_append_right _ hLine)

/-- There is help that an output takes when it takes the level and the level has no percent sign. -/
theorem exists_help_of_plain {s : Settings} {e : Encoding}
    (hPercent : CodePoint.scalar '%' ∉ s.logLevel) (hLevel : e.takes s.logLevel = true) :
    ∃ text, help s = .ok text ∧ e.takes text = true := by
  have hDescription : CodePoint.scalar '%' ∉ Help.description s .logLevel := by
    simp only [Help.description, List.mem_append, hPercent, or_false, not_or]
    decide
  have hFill : Help.levelDescription? s = .ok (Help.description s .logLevel) :=
    Help.fill_description hDescription
  obtain ⟨text, hText⟩ := exists_help_iff.mpr ⟨_, hFill⟩
  refine ⟨text, hText, takes_help hText fun t ht => ?_⟩
  obtain rfl := Except.ok.inj (hFill.symm.trans ht)
  have hWords : ∀ {t : Text}, t.IsAscii → e.takes t = true := Encoding.takes_of_isAscii e
  rw [Help.description, Encoding.takes_append, Encoding.takes_append, hLevel, hWords (by decide),
    hWords (by decide)]
  rfl

end OscMonitor.CommandLine
