import Mathlib.Data.List.Forall2
import Mathlib.Data.List.Nodup
import OscMonitor.Proofs.Number.Real
import OscMonitor.Proofs.Report.Integers
import OscMonitor.Proofs.Settings.Limits
import OscMonitor.Settings.Resolve

/-!
# Settings one by one

Every setting has a value of its own that wins: that of its variable in the environment, whatever
the case of the name, else that of the file. Where no two names of a source are the same but for
their case, there is exactly one such value, or none. The settings are read one by one from the
values that win, and nothing else has a say: they are accepted when each value is acceptable for its
own setting, and else the faults name exactly the settings whose value is not, in order.

* `Sources.Wins` — the value that wins for a setting.
* `Setting.Means` — what a value means for a setting.
* `Settings.reading_of_ofValues`, `Settings.faults_of_ofValues` — the settings are read one by one.
* `Settings.resolve_each` — which settings come of the sources, and when.
-/

namespace OscMonitor

/-! ## Names in any case -/

/-- A code point in some case: as it is or, if it is a small letter, as its capital, which for `k`
may be the Kelvin sign. -/
inductive CodePoint.InCase : CodePoint → CodePoint → Prop where
  | same (p : CodePoint) : InCase p p
  | capital {c : Char} (h : c.isLower = true) : InCase (.scalar c) (.scalar c.toUpper)
  | kelvin : InCase (.scalar 'k') (.ofNumber 0x212A)

/-- A character that the names of variables are made of. -/
def CodePoint.isSmall : CodePoint → Bool
  | .scalar c => c.isLower || c == '_'
  | .surrogate _ => false

/-- The name of a setting's variable in some case. -/
def Setting.Names (setting : Setting) (n : Text) : Prop :=
  List.Forall₂ CodePoint.InCase setting.variableName n

theorem Setting.mem_all (setting : Setting) : setting ∈ all := by
  cases setting <;> decide

theorem Setting.isSmall_variableName (setting : Setting) :
    ∀ p ∈ setting.variableName, p.isSmall = true := by
  cases setting <;> decide

namespace CodePoint

theorem exists_of_isSmall {p : CodePoint} (h : p.isSmall = true) :
    ∃ c, p = .scalar c ∧ (c.isLower = true ∨ c = '_') := by
  cases p with
  | scalar c => exact ⟨c, rfl, by simpa [isSmall] using h⟩
  | surrogate => cases h

/-- A small character is the lower case of itself and of its capital, and of nothing else. -/
theorem toLower_eq_iff {c d : Char} (hc : c.isLower = true ∨ c = '_') :
    d.toLower = c ↔ d = c ∨ c.isLower = true ∧ d = c.toUpper := by
  have hLower : c.toLower = c := by
    refine Char.toLower_eq_of_not_isUpper ?_
    obtain h | rfl := hc
    · exact fun hUpper => Char.not_isLower_of_isUpper hUpper h
    · decide
  constructor
  · rintro rfl
    -- the lower case of a character is small only if it was a capital, or as it is
    by_cases hUpper : d.isUpper
    · have hd : ¬ d.isLower := Char.not_isLower_of_isUpper hUpper
      refine .inr ⟨?_, ?_⟩
      · rw [Char.isLower_toLower_eq_isAlpha, Char.isAlpha, hUpper, Bool.true_or]
      · rw [Char.toUpper_toLower_eq_toUpper, Char.toUpper_eq_of_not_isLower hd]
    · exact .inl (Char.toLower_eq_of_not_isUpper hUpper).symm
  · rintro (rfl | ⟨-, rfl⟩)
    · exact hLower
    · rw [Char.toLower_toUpper_eq_toLower, hLower]

end CodePoint

namespace Sources

theorem foldPoint_of_toLower {c d : Char} (hc : c.isLower = true ∨ c = '_') (h : d.toLower = c) :
    foldPoint (.scalar d) = .scalar c := by
  -- the lower case of the Kelvin sign by the rule of ASCII is itself, which is no small letter
  have hKelvin : CodePoint.scalar d ≠ .ofNumber 0x212A := by
    intro hd
    obtain rfl : d = Char.ofNat 0x212A := CodePoint.scalar.inj hd
    subst h
    revert hc
    decide
  rw [foldPoint, if_neg hKelvin, CodePoint.lowerAscii, h]

theorem foldPoint_eq_iff {p q : CodePoint} (hp : p.isSmall = true) :
    foldPoint q = p ↔ p.InCase q := by
  obtain ⟨c, rfl, hc⟩ := CodePoint.exists_of_isSmall hp
  constructor
  · intro h
    -- only the Kelvin sign has an ASCII letter for its lower case without being one
    unfold foldPoint at h
    split at h
    · next hKelvin =>
      subst hKelvin
      obtain rfl := CodePoint.scalar.inj h
      exact .kelvin
    · cases q with
      | surrogate => cases h
      | scalar d =>
        obtain rfl | ⟨hLower, rfl⟩ := (CodePoint.toLower_eq_iff hc).mp (CodePoint.scalar.inj h)
        · exact .same _
        · exact .capital hLower
  · intro h
    cases h with
    | same => exact foldPoint_of_toLower hc ((CodePoint.toLower_eq_iff hc).mpr (.inl rfl))
    | capital hLower =>
      exact foldPoint_of_toLower hc ((CodePoint.toLower_eq_iff hc).mpr (.inr ⟨hLower, rfl⟩))
    | kelvin => rfl

theorem foldName_eq_iff {name n : Text} (hName : ∀ p ∈ name, p.isSmall = true) :
    foldName n = name ↔ List.Forall₂ CodePoint.InCase name n := by
  induction name generalizing n with
  | nil => simp [foldName]
  | cons p name ih =>
    obtain ⟨hp, hName⟩ := List.forall_mem_cons.mp hName
    cases n with
    | nil => simp [foldName]
    | cons q n =>
      rw [foldName, List.map_cons, List.cons_eq_cons, foldPoint_eq_iff hp, List.forall₂_cons,
        ← ih hName]
      rfl

/-- A name counts for a setting exactly when it is that of its variable in some case. -/
theorem foldName_eq_variableName_iff {setting : Setting} {n : Text} :
    foldName n = setting.variableName ↔ setting.Names n :=
  foldName_eq_iff setting.isSmall_variableName

/-! ## The value that wins -/

/-- No two names are the same but for their case. -/
def Distinct {α : Type} (bindings : List (Text × α)) : Prop :=
  (bindings.map fun (n, _) => foldName n).Nodup

instance {α : Type} (bindings : List (Text × α)) : Decidable (Distinct bindings) :=
  inferInstanceAs (Decidable (List.Nodup _))

/-- The bindings give a setting a value, under the name of its variable in some case. -/
def Gives {α : Type} (bindings : List (Text × α)) (setting : Setting) (v : α) : Prop :=
  ∃ n, setting.Names n ∧ (n, v) ∈ bindings

section Bindings

variable {α : Type} {bindings : List (Text × α)} {setting : Setting} {v v' : α}

theorem last?_eq_some_iff (h : Distinct bindings) :
    last? setting.variableName bindings = some v ↔ Gives bindings setting v := by
  have hInjective := List.inj_on_of_nodup_map h
  constructor
  · intro hLast
    obtain ⟨⟨n, w⟩, hFind, rfl⟩ := Option.map_eq_some_iff.mp hLast
    have hName : foldName n = setting.variableName := by simpa using List.find?_some hFind
    exact ⟨n, foldName_eq_variableName_iff.mp hName,
      List.mem_reverse.mp (List.mem_of_find?_eq_some hFind)⟩
  · rintro ⟨n, hName, hMem⟩
    have hName := foldName_eq_variableName_iff.mpr hName
    -- some binding is found, and no other one than this has the name
    cases hFind : bindings.reverse.find? fun (n, _) => foldName n = setting.variableName with
    | none =>
      have hNone := List.find?_eq_none.mp hFind (n, v) (List.mem_reverse.mpr hMem)
      exact absurd (decide_eq_true hName) hNone
    | some m =>
      have hFound : foldName m.1 = setting.variableName := by simpa using List.find?_some hFind
      have hSame : m = (n, v) := hInjective
        (List.mem_reverse.mp (List.mem_of_find?_eq_some hFind)) hMem (hFound.trans hName.symm)
      rw [last?, hFind, hSame]
      rfl

theorem last?_eq_none_iff (h : Distinct bindings) :
    last? setting.variableName bindings = none ↔ ∀ v, ¬ Gives bindings setting v := by
  rw [Option.eq_none_iff_forall_ne_some]
  exact forall_congr' fun v => not_congr (last?_eq_some_iff h)

/-- Bindings without names that are the same but for their case give a setting at most one value. -/
theorem Gives.unique (h : Distinct bindings) (hv : Gives bindings setting v)
    (hv' : Gives bindings setting v') : v = v' := by
  rw [← last?_eq_some_iff h] at hv hv'
  exact Option.some.inj (hv.symm.trans hv')

end Bindings

/-- What the names of the file stand for. -/
def fileValues (s : Sources) : Bindings := EnvFile.values s.environment s.file

theorem value?_eq (s : Sources) (setting : Setting) :
    s.value? setting = (last? setting.variableName s.environment).or
      (last? setting.variableName s.fileValues).join := rfl

/-- Within neither source two names are the same but for their case. -/
structure Unambiguous (s : Sources) : Prop where
  environment : Distinct s.environment
  file : Distinct s.fileValues

/-- The value that wins for a setting: that of the environment, if it has one, else that of the
file, if it has one. A name that the file lists without a value has none. -/
inductive Wins (s : Sources) (setting : Setting) : Option Text → Prop where
  | environment {t : Text} (h : Gives s.environment setting t) : Wins s setting (some t)
  | file {t : Text} (hEnvironment : ∀ t, ¬ Gives s.environment setting t)
    (h : Gives s.fileValues setting (some t)) : Wins s setting (some t)
  | standard (hEnvironment : ∀ t, ¬ Gives s.environment setting t)
    (hFile : ∀ t, ¬ Gives s.fileValues setting (some t)) : Wins s setting none

variable {s s' : Sources} {setting : Setting} {v v' : Option Text}

theorem wins_value? (h : s.Unambiguous) (setting : Setting) :
    s.Wins setting (s.value? setting) := by
  rw [value?_eq]
  cases hEnvironment : last? setting.variableName s.environment with
  | some t => exact .environment ((last?_eq_some_iff h.environment).mp hEnvironment)
  | none =>
    have hNone := (last?_eq_none_iff h.environment).mp hEnvironment
    rw [Option.none_or]
    cases hFile : last? setting.variableName s.fileValues with
    | none => exact .standard hNone fun t => (last?_eq_none_iff h.file).mp hFile (some t)
    | some v =>
      have hGives := (last?_eq_some_iff h.file).mp hFile
      cases v with
      | some t => exact .file hNone hGives
      | none => exact .standard hNone fun t ht => nomatch hGives.unique h.file ht

theorem Wins.unique (h : s.Unambiguous) (hv : s.Wins setting v) (hv' : s.Wins setting v') :
    v = v' := by
  cases hv with
  | environment hGives =>
    cases hv' with
    | environment hGives' => rw [hGives.unique h.environment hGives']
    | file hNone _ | standard hNone _ => exact absurd hGives (hNone _)
  | file hNone hGives =>
    cases hv' with
    | environment hGives' => exact absurd hGives' (hNone _)
    | file _ hGives' => exact hGives.unique h.file hGives'
    | standard _ hNoFile => exact absurd hGives (hNoFile _)
  | standard hNone hNoFile =>
    cases hv' with
    | environment hGives' => exact absurd hGives' (hNone _)
    | file _ hGives' => exact absurd hGives' (hNoFile _)
    | standard => rfl

theorem wins_iff (h : s.Unambiguous) : s.Wins setting v ↔ v = s.value? setting := by
  constructor
  · exact fun hv => hv.unique h (wins_value? h setting)
  · rintro rfl
    exact wins_value? h setting

/-- Two sources give each setting the same values, those of the file only where the environment has
none. -/
structure Agree (s s' : Sources) : Prop where
  environment : ∀ setting t, Gives s.environment setting t ↔ Gives s'.environment setting t
  file : ∀ setting, (∀ t, ¬ Gives s.environment setting t) →
    ∀ t, Gives s.fileValues setting (some t) ↔ Gives s'.fileValues setting (some t)

theorem Agree.wins (h : s.Agree s') (hv : s.Wins setting v) : s'.Wins setting v := by
  have hNone (hNone : ∀ t, ¬ Gives s.environment setting t) :
      ∀ t, ¬ Gives s'.environment setting t :=
    fun t ht => hNone t ((h.environment setting t).mpr ht)
  cases hv with
  | environment hGives => exact .environment ((h.environment setting _).mp hGives)
  | file hEnvironment hGives =>
    exact .file (hNone hEnvironment) ((h.file setting hEnvironment _).mp hGives)
  | standard hEnvironment hFile =>
    exact .standard (hNone hEnvironment) fun t ht =>
      hFile t ((h.file setting hEnvironment t).mpr ht)

end Sources

/-! ## What a value means -/

namespace Setting

/-- What a setting holds. -/
abbrev Carrier : Setting → Type
  | host | port => Option Text
  | socketTimeout => Timeout
  | bufferSize => Int
  | logLevel => Text
  | logFormat => Log.Format
  | debug => Bool

/-- What a value means for a setting. Any text is a host or a port, and in upper case a level; a
time limit is spelled as a double, and one of no time at all is none; a size is spelled as an
integer and at least 1. -/
def Means : (setting : Setting) → Text → setting.Carrier → Prop
  | host, t, h => h = some t
  | port, t, p => p = some t
  | socketTimeout, t, limit =>
    ∃ x, Numeral.SpellsReal t x ∧ (Seconds.real x).Limits limit
  | bufferSize, t, n =>
    (∃ digits, Numeral.Spells t digits n ∧ digits.length ≤ Numeral.digitLimit) ∧ 1 ≤ n
  | logLevel, t, l => l = t.upper
  | logFormat, t, f => t = f.name
  | debug, t, b => t.lowerAscii ∈ if b then Accept.yesWords else Accept.noWords

/-- A value is acceptable for a setting. -/
def Accepts (setting : Setting) (t : Text) : Prop := ∃ x, setting.Means t x

end Setting

/-- A value means one thing only for a setting. -/
theorem Setting.Means.unique {setting : Setting} {t : Text} {x y : setting.Carrier}
    (hx : setting.Means t x) (hy : setting.Means t y) : x = y := by
  -- a text is its own meaning; numbers, formats and truth values are told by how they are written
  cases setting with
  | host | port | logLevel => exact Eq.trans hx (Eq.symm hy)
  | socketTimeout =>
    obtain ⟨d, hd, hLimit⟩ := hx
    obtain ⟨e, he, hLimit'⟩ := hy
    obtain rfl := hd.unique he
    exact (Seconds.limits_iff.mp hLimit).trans (Seconds.limits_iff.mp hLimit').symm
  | bufferSize =>
    obtain ⟨⟨_, hSpells, -⟩, -⟩ := hx
    obtain ⟨⟨_, hSpells', -⟩, -⟩ := hy
    exact hSpells'.unique hSpells
  | logFormat =>
    have hName : Log.Format.name x = Log.Format.name y := Eq.trans (Eq.symm hx) hy
    revert hName
    cases x <;> cases y <;> decide
  | debug =>
    have hApart : ∀ w ∈ Accept.noWords, w ∉ Accept.yesWords := by decide
    cases x <;> cases y
    · rfl
    · exact absurd hy (hApart _ hx)
    · exact absurd hx (hApart _ hy)
    · rfl

/-- What the settings hold. -/
def Settings.value (s : Settings) : (setting : Setting) → setting.Carrier
  | .host => s.host
  | .port => s.port
  | .socketTimeout => s.socketTimeout
  | .bufferSize => s.bufferSize
  | .logLevel => s.logLevel
  | .logFormat => s.logFormat
  | .debug => s.debug

/-- The words for truth values have no case, and no other text reads as one. -/
theorem Accept.flagText_eq_ok_iff {t : Text} {b : Bool} :
    flagText t = .ok b ↔ t.lowerAscii ∈ if b then yesWords else noWords := by
  have hWords : ∀ w ∈ yesWords ++ noWords, isUnicode w = true := by decide
  have hApart : ∀ w ∈ noWords, w ∉ yesWords := by decide
  -- whether a text is proper Unicode does not depend on its case: the folded word can be looked at
  have hLower : isUnicode t.lowerAscii = isUnicode t := by
    rw [isUnicode, isUnicode, Text.lowerAscii, List.all_map]
    refine congrArg t.all (funext fun p => ?_)
    cases p <;> rfl
  unfold flagText
  rw [← hLower]
  generalize t.lowerAscii = word
  by_cases hYes : word ∈ yesWords
  · have hNo : word ∉ noWords := fun h => hApart word h hYes
    have hUnicode := hWords word (List.mem_append_left _ hYes)
    cases b <;> simp [hUnicode, hYes, hNo]
  by_cases hNo : word ∈ noWords
  · have hUnicode := hWords word (List.mem_append_right _ hNo)
    cases b <;> simp [hUnicode, hYes, hNo]
  · cases b <;> simp [hYes, hNo] <;> split <;> simp

namespace Settings

/-! ## Readers -/

section Readers

variable {α : Type} {read : Text → Except SettingCause α} {standard x : α} {t : Text}

theorem readOr_some_eq_ok_iff :
    readOr read standard (some t) = .ok x ↔ Accept.isUnicode t = true ∧ read t = .ok x := by
  unfold readOr
  dsimp only
  split
  · next hUnicode => simp [hUnicode]
  · next hUnicode => simp [hUnicode]

theorem readTimeout_eq_ok_iff {limit : Timeout} :
    readTimeout t = .ok limit ↔
      ∃ x, Numeral.SpellsReal t x ∧ (Seconds.real x).Limits limit := by
  simp only [← Numeral.real?_eq_some_iff, Seconds.limits_iff]
  unfold readTimeout
  cases Numeral.real? t <;> simp [eq_comm]

theorem readSize_eq_ok_iff {n : Int} :
    readSize t = .ok n ↔ Numeral.integer t = .ok n ∧ 1 ≤ n := by
  unfold readSize
  rcases Numeral.integer t with (- | -) | m
  · simp
  · simp
  · dsimp only
    split <;> simp <;> omega

theorem readFormat_eq_ok_iff {format : Log.Format} :
    readFormat t = .ok format ↔ t = format.name := by
  have hApart : Log.Format.name .console ≠ Log.Format.name .json := by decide
  unfold readFormat
  by_cases hJson : t = Log.Format.name .json
  · subst hJson
    cases format <;> simp [hApart.symm]
  by_cases hConsole : t = Log.Format.name .console
  · subst hConsole
    cases format <;> simp [hApart]
  · cases format <;> simp [hJson, hConsole]

theorem readFlag_eq_ok_iff {b : Bool} : readFlag t = .ok b ↔ Accept.flagText t = .ok b := by
  unfold readFlag
  cases Accept.flagText t <;> simp

end Readers

/-! ## One by one -/

section OneByOne

variable (value? : Setting → Option Text)

/-- What each setting reads as. -/
def reading : (setting : Setting) → Except SettingCause setting.Carrier
  | .host => .ok (value? .host)
  | .port => .ok (value? .port)
  | .socketTimeout => readOr readTimeout ({} : Settings).socketTimeout (value? .socketTimeout)
  | .bufferSize => readOr readSize ({} : Settings).bufferSize (value? .bufferSize)
  | .logLevel => .ok (((value? .logLevel).map Text.upper).getD ({} : Settings).logLevel)
  | .logFormat => readOr readFormat ({} : Settings).logFormat (value? .logFormat)
  | .debug => readOr readFlag ({} : Settings).debug (value? .debug)

variable {value?} {setting : Setting}

/-- A setting without a value is the standard one. -/
theorem reading_of_none (h : value? setting = none) :
    reading value? setting = .ok (({} : Settings).value setting) := by
  cases setting <;> simp only [reading, h] <;> rfl

/-- A setting with a value reads as what the value means. -/
theorem reading_of_some {t : Text} (h : value? setting = some t) {x : setting.Carrier} :
    reading value? setting = .ok x ↔ setting.Means t x := by
  -- apart from texts, what can be read has no surrogates: that part of the condition follows
  cases setting with
  | host | port | logLevel =>
    simp only [reading, h, Except.ok.injEq]
    exact eq_comm
  | socketTimeout =>
    simp only [reading, h, readOr_some_eq_ok_iff, readTimeout_eq_ok_iff, Setting.Means]
    refine and_iff_right_of_imp ?_
    rintro ⟨_, hSpells, -⟩
    exact Accept.isUnicode_of_number_lt hSpells.number_lt
  | bufferSize =>
    simp only [reading, h, readOr_some_eq_ok_iff, readSize_eq_ok_iff, Setting.Means,
      Numeral.integer_eq_ok_iff]
    refine and_iff_right_of_imp ?_
    rintro ⟨⟨_, hSpells, -⟩, -⟩
    exact hSpells.isUnicode
  | logFormat =>
    simp only [reading, h, readOr_some_eq_ok_iff, readFormat_eq_ok_iff, Setting.Means]
    refine and_iff_right_of_imp ?_
    rintro rfl
    cases x <;> rfl
  | debug =>
    simp only [reading, h, readOr_some_eq_ok_iff, readFlag_eq_ok_iff, Setting.Means,
      ← Accept.flagText_eq_ok_iff]
    refine and_iff_right_of_imp fun hFlag => ?_
    unfold Accept.flagText at hFlag
    split at hFlag
    · assumption
    · cases hFlag

theorem faultOf_eq_nil_iff {α : Type} {e : Except SettingCause α} :
    faultOf setting e = [] ↔ ∃ x, e = .ok x := by
  cases e <;> simp [faultOf]

theorem exists_reading_iff :
    (∃ x, reading value? setting = .ok x) ↔ ∀ t, value? setting = some t → setting.Accepts t := by
  cases h : value? setting with
  | none => simp [reading_of_none h]
  | some t => simp [reading_of_some h, Setting.Accepts]

/-- The settings are what each of them reads as. -/
theorem reading_of_ofValues {s : Settings} (h : ofValues value? = .ok s) (setting : Setting) :
    reading value? setting = .ok (s.value setting) := by
  unfold ofValues at h
  dsimp only at h
  split at h
  · next hTimeout hSize hFormat hDebug =>
    obtain rfl := Except.ok.inj h
    cases setting with
    | socketTimeout => exact hTimeout
    | bufferSize => exact hSize
    | logFormat => exact hFormat
    | debug => exact hDebug
    | host | port | logLevel => rfl
  · cases h

/-- The faults are those of each setting, in order, and there is one. -/
theorem faults_of_ofValues {faults : List SettingFault} (h : ofValues value? = .error faults) :
    faults = Setting.all.flatMap (fun setting => faultOf setting (reading value? setting)) ∧
      faults ≠ [] := by
  unfold ofValues at h
  dsimp only at h
  split at h
  · cases h
  · next hSome =>
    obtain rfl := Except.error.inj h
    constructor
    · simp only [Setting.all, reading, List.flatMap_cons, List.flatMap_nil, faultOf,
        List.nil_append, List.append_nil, List.append_assoc]
    · intro hNil
      simp only [List.append_eq_nil_iff, faultOf_eq_nil_iff] at hNil
      obtain ⟨⟨⟨⟨_, hTimeout⟩, _, hSize⟩, _, hFormat⟩, _, hDebug⟩ := hNil
      exact hSome _ _ _ _ hTimeout hSize hFormat hDebug

/-- Of a list of settings, the faults name those that cannot be read. -/
theorem map_setting_faults (read : (setting : Setting) → Except SettingCause setting.Carrier)
    (settings : List Setting) :
    (settings.flatMap fun setting => faultOf setting (read setting)).map SettingFault.setting =
      settings.filter fun setting => !(read setting).isOk := by
  induction settings with
  | nil => rfl
  | cons setting settings ih =>
    rw [List.flatMap_cons, List.map_append, ih, List.filter_cons]
    cases read setting <;> rfl

/-- The settings are accepted exactly when every value is acceptable for its own setting. -/
theorem exists_ofValues_iff :
    (∃ s, ofValues value? = .ok s) ↔ ∀ setting t, value? setting = some t → setting.Accepts t := by
  constructor
  · rintro ⟨s, hs⟩ setting
    exact exists_reading_iff.mp ⟨_, reading_of_ofValues hs setting⟩
  · intro hAccepts
    cases h : ofValues value? with
    | ok s => exact ⟨s, rfl⟩
    | error faults =>
      -- a setting that can be read has no fault
      obtain ⟨rfl, hSome⟩ := faults_of_ofValues h
      refine absurd (List.flatMap_eq_nil_iff.mpr fun setting _ => ?_) hSome
      exact faultOf_eq_nil_iff.mpr (exists_reading_iff.mpr (hAccepts setting))

/-- The faults name the settings whose value is not acceptable, in order. -/
theorem settings_of_faults {faults : List SettingFault} (h : ofValues value? = .error faults) :
    (faults.map SettingFault.setting).Sublist Setting.all ∧
      ∀ setting, setting ∈ faults.map SettingFault.setting ↔
        ∃ t, value? setting = some t ∧ ¬ setting.Accepts t := by
  obtain ⟨rfl, -⟩ := faults_of_ofValues h
  rw [map_setting_faults]
  refine ⟨List.filter_sublist, fun setting => ?_⟩
  have hRead : (!(reading value? setting).isOk) = true ↔ ¬ ∃ x, reading value? setting = .ok x := by
    cases reading value? setting <;> simp [Except.isOk, Except.toBool]
  rw [List.mem_filter, hRead, exists_reading_iff]
  simp [setting.mem_all]

/-- A setting holds what its own value means, and the standard without one. -/
theorem value_of_ofValues {s : Settings} (h : ofValues value? = .ok s) (setting : Setting) :
    (∀ t, value? setting = some t → setting.Means t (s.value setting)) ∧
      (value? setting = none → s.value setting = ({} : Settings).value setting) := by
  have hReading := reading_of_ofValues h setting
  constructor
  · exact fun t ht => (reading_of_some ht).mp hReading
  · intro hNone
    rw [reading_of_none hNone] at hReading
    exact (Except.ok.inj hReading).symm

/-- So settings with the same value hold the same. -/
theorem value_congr {value?' : Setting → Option Text} {s s' : Settings}
    (h : ofValues value? = .ok s) (h' : ofValues value?' = .ok s')
    (hSame : value? setting = value?' setting) :
    s'.value setting = s.value setting := by
  obtain ⟨hSome, hNone⟩ := value_of_ofValues h setting
  obtain ⟨hSome', hNone'⟩ := value_of_ofValues h' setting
  rw [← hSame] at hSome' hNone'
  cases hValue : value? setting with
  | none => rw [hNone hValue, hNone' hValue]
  | some t => exact (hSome' t hValue).unique (hSome t hValue)

theorem one_le_bufferSize {s : Settings} (h : ofValues value? = .ok s) : 1 ≤ s.bufferSize := by
  obtain ⟨hSome, hNone⟩ := value_of_ofValues h .bufferSize
  cases hValue : value? .bufferSize with
  | some t => exact (hSome t hValue).2
  | none =>
    have hStandard : s.bufferSize = 2048 := hNone hValue
    rw [hStandard]
    decide

end OneByOne

/-- **The settings are resolved one by one.** Where no two names of a source are the same but for
their case, exactly one value wins for each setting, or none does: that of the environment, else
that of the file. The settings are accepted exactly when every value that wins is acceptable for its
own setting. If not, the faults name the settings whose value is not, each once and in order. If so,
each setting holds what its own value means, and the standard without one, whatever the other values
are; the size is at least 1, and the level is in upper case. Neither a value of the file that the
environment hides nor the other names matter. -/
theorem resolve_each {sources : Sources} (h : sources.Unambiguous) :
    (∀ setting, ∃ v, ∀ w, sources.Wins setting w ↔ w = v) ∧
    ((∃ s, resolve sources = .ok s) ↔
      ∀ setting t, sources.Wins setting (some t) → setting.Accepts t) ∧
    (∀ faults, resolve sources = .error faults →
      (faults.map SettingFault.setting).Sublist Setting.all ∧
      ∀ setting, setting ∈ faults.map SettingFault.setting ↔
        ∃ t, sources.Wins setting (some t) ∧ ¬ setting.Accepts t) ∧
    (∀ s, resolve sources = .ok s → 1 ≤ s.bufferSize ∧
      (∀ t, sources.Wins .logLevel (some t) → s.logLevel = t.upper) ∧
      ∀ setting,
        (∀ t, sources.Wins setting (some t) → setting.Means t (s.value setting)) ∧
        (sources.Wins setting none → s.value setting = ({} : Settings).value setting) ∧
        ∀ sources' s', sources'.Unambiguous → resolve sources' = .ok s' →
          (∀ v, sources.Wins setting v → sources'.Wins setting v) →
          s'.value setting = s.value setting) ∧
    ∀ sources', sources'.Unambiguous → sources.Agree sources' →
      resolve sources' = resolve sources := by
  have hWins : ∀ setting v, sources.Wins setting v ↔ sources.value? setting = v := by
    intro setting v
    rw [Sources.wins_iff h, eq_comm]
  simp only [hWins]
  refine ⟨fun setting => ⟨_, fun w => eq_comm⟩, exists_ofValues_iff,
    fun faults => settings_of_faults, fun s hs => ?_, fun sources' h' hAgree => ?_⟩
  · refine ⟨one_le_bufferSize hs, fun t => (value_of_ofValues hs .logLevel).1 t,
      fun setting =>
        ⟨(value_of_ofValues hs setting).1, (value_of_ofValues hs setting).2, ?_⟩⟩
    intro sources' s' h' hs' hSame
    have hValue := (Sources.wins_iff h').mp (hSame _ rfl)
    exact value_congr hs hs' hValue
  · -- the same values win, and nothing else is read
    have hSame : sources'.value? = sources.value? := by
      funext setting
      exact ((Sources.wins_iff h').mp (hAgree.wins (Sources.wins_value? h setting))).symm
    rw [resolve, resolve, hSame]

/-- A time limit that the environment hides is no number, and does no harm; a truth value that it
does not hide does. -/
theorem resolve_each_of_hidden :
    let environment : Keyed Text := [("Artmon_Socket_Timeout", "0"), ("OTHER", "x")]
    let accepted : Sources := ⟨environment, "ARTMON_SOCKET_TIMEOUT=abc\nartmon_log_level=debug"⟩
    let refused : Sources := ⟨environment, "ARTMON_SOCKET_TIMEOUT=abc\nARTMON_DEBUG=maybe"⟩
    accepted.Unambiguous ∧ accepted.Wins .socketTimeout (some "0") ∧
      resolve accepted = .ok { socketTimeout := none, logLevel := "DEBUG" } ∧
      Setting.socketTimeout.Accepts "0" ∧
      refused.Unambiguous ∧ resolve refused = .error [⟨.debug, .unclearBoolean⟩] ∧
      ∃ t, refused.Wins .debug (some t) ∧ ¬ Setting.debug.Accepts t := by
  intro environment accepted refused
  -- the two files read as these names and values
  have hAcceptedFile : accepted.fileValues =
      [(Text.ofString "ARTMON_SOCKET_TIMEOUT", some (Text.ofString "abc")),
        (Text.ofString "artmon_log_level", some (Text.ofString "debug"))] := by
    decide +kernel
  have hRefusedFile : refused.fileValues =
      [(Text.ofString "ARTMON_SOCKET_TIMEOUT", some (Text.ofString "abc")),
        (Text.ofString "ARTMON_DEBUG", some (Text.ofString "maybe"))] := by
    decide +kernel
  have hAccepted : accepted.Unambiguous := ⟨by decide, by rw [hAcceptedFile]; decide⟩
  have hRefused : refused.Unambiguous := ⟨by decide, by rw [hRefusedFile]; decide⟩
  have hTimeout : readOr readTimeout ({} : Settings).socketTimeout (some "0") = .ok none :=
    readOr_some_eq_ok_iff.mpr
      ⟨by decide, readTimeout_eq_ok_iff.mpr ⟨.zero false,
        Numeral.real?_eq_some_iff.mp (by decide +kernel), Seconds.limits_iff.mpr rfl⟩⟩
  have hOk : resolve accepted = .ok { socketTimeout := none, logLevel := "DEBUG" } := by
    have hValues : accepted.value? = fun
        | .socketTimeout => some "0"
        | .logLevel => some "debug"
        | _ => none := by
      funext setting
      rw [Sources.value?_eq, hAcceptedFile]
      cases setting <;> decide
    rw [resolve, hValues, ofValues, hTimeout]
    rfl
  have hError : resolve refused = .error [⟨.debug, .unclearBoolean⟩] := by
    have hValues : refused.value? = fun
        | .socketTimeout => some "0"
        | .debug => some "maybe"
        | _ => none := by
      funext setting
      rw [Sources.value?_eq, hRefusedFile]
      cases setting <;> decide
    rw [resolve, hValues, ofValues, hTimeout]
    rfl
  have hWins : accepted.Wins .socketTimeout (some "0") :=
    .environment ⟨"Artmon_Socket_Timeout", Sources.foldName_eq_variableName_iff.mp (by decide),
      List.mem_cons_self⟩
  refine ⟨hAccepted, hWins, hOk, ?_, hRefused, hError, ?_⟩
  · exact (resolve_each hAccepted).2.1.mp ⟨_, hOk⟩ .socketTimeout _ hWins
  · exact (((resolve_each hRefused).2.2.1 _ hError).2 .debug).mp List.mem_cons_self

end Settings

end OscMonitor
