import OscMonitor.CommandLine.Run

/-!
# Levels of the log that can be given

A level of the settings whose name something else has leaves the command without a log. The options
cannot do that, since a level that is given as an option is one of a few words.

* `Options.hasLevelWord_of_read` — the levels that can be given.
* `exists_threshold` — the log has a threshold, whatever options are given.
-/

namespace OscMonitor.CommandLine

/-- A level that is given is one of the words for levels. -/
def Options.HasLevelWord (o : Options) : Prop :=
  ∀ level, o.logLevel = some level → level ∈ Flag.levelWords

namespace Options

variable {o o' : Options}

theorem choose_eq_ok {f : Flag} {words : List Text} {value word : Text}
    (h : choose f words value = .ok word) : word ∈ words := by
  unfold choose at h
  split at h
  · next hMem =>
    obtain rfl := Except.ok.inj h
    simpa using hMem
  · cases h

/-- Taking an option sets the level to a word or leaves it as it is. -/
theorem hasLevelWord_of_set (ho : o.HasLevelWord) {f : Flag} {value : Option Text}
    (h : o.set f value = .ok o') : o'.HasLevelWord := by
  cases value with
  | none =>
    obtain rfl := Except.ok.inj h
    cases f <;> exact ho
  | some value =>
    change o.setValue f value = .ok o' at h
    -- one option after the other; only that of the level touches the level
    cases f with
    | help | raw | address | port =>
      obtain rfl := Except.ok.inj h
      exact ho
    | request =>
      simp only [setValue, bind, Except.bind] at h
      split at h
      · cases h
      · obtain rfl := Except.ok.inj h
        exact ho
    | timeout =>
      simp only [setValue] at h
      split at h
      · obtain rfl := Except.ok.inj h
        exact ho
      · cases h
    | logLevel =>
      simp only [setValue, bind, Except.bind] at h
      split at h
      · cases h
      · next word hWord =>
        obtain rfl := Except.ok.inj h
        rintro level ⟨rfl⟩
        exact choose_eq_ok hWord
    | logFormat =>
      simp only [setValue, bind, Except.bind] at h
      split at h
      · cases h
      · obtain rfl := Except.ok.inj h
        exact ho

theorem hasLevelWord_of_take (ho : o.HasLevelWord) {f : Flag} {attached : Option Attached}
    {following : Option Text} {usesNext : Bool}
    (h : take o f attached following = .ok (.options o' usesNext)) : o'.HasLevelWord := by
  simp only [take, bind, Except.bind] at h
  split at h
  · cases h
  split at h
  · cases h
  split at h
  · cases h
  · split at h
    · cases h
    · next hSet =>
      obtain ⟨rfl, -⟩ := Taken.options.inj (Except.ok.inj h)
      exact hasLevelWord_of_set ho hSet

theorem hasLevelWord_of_takeAll (ho : o.HasLevelWord) {extra : List Text}
    {readings : List (Text × Reading)} (h : takeAll o extra readings = .ok (.exchange o')) :
    o'.HasLevelWord := by
  fun_induction takeAll o extra readings with
  | case1 o extra hEmpty =>
    obtain rfl := Plan.exchange.inj (Except.ok.inj h)
    exact ho
  | case2 => cases h
  | case3 => cases h
  | case4 => cases h
  | case5 o extra t rest f attached next usesNext hTake ih =>
    exact ih (hasLevelWord_of_take ho hTake) h
  | case6 o extra t reading rest _ ih => exact ih ho h

/-- A level that is given with the arguments is one of the words for levels. -/
theorem hasLevelWord_of_read {arguments : List Text}
    (h : read arguments = .ok (.exchange o)) : o.HasLevelWord := by
  unfold read at h
  split at h
  · cases h
  · have hNone : ({} : Options).HasLevelWord := fun _ hLevel => by cases hLevel
    exact hasLevelWord_of_takeAll hNone h

end Options

/-- The level of the settings, where it is that of the log, is not the name of something else. -/
def LevelIsFree (s : Settings) (o : Options) : Prop :=
  o.logLevel = none → Log.Threshold.takenNames.lookup s.logLevel.upper = none

/-- The log has a threshold, unless the settings have a level whose name something else has. -/
theorem exists_threshold {s : Settings} {o : Options} (hLevel : LevelIsFree s o)
    {arguments : List Text} (h : read arguments = .ok (.exchange o)) :
    ∃ threshold, Log.Threshold.ofName (setup s o).level = .ok threshold := by
  have hWords : ∀ level ∈ Flag.levelWords,
      Log.Threshold.takenNames.lookup (Text.upper level) = none := by decide +kernel
  have hTaken : Log.Threshold.takenNames.lookup (setup s o).level.upper = none := by
    show Log.Threshold.takenNames.lookup (o.logLevel.getD s.logLevel).upper = none
    cases hGiven : o.logLevel with
    | none => exact hLevel hGiven
    | some level => exact hWords level (Options.hasLevelWord_of_read h level hGiven)
  exact ⟨_, by rw [Log.Threshold.ofName, Log.Threshold.ofUpperName, hTaken]⟩

end OscMonitor.CommandLine
