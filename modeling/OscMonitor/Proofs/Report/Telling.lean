import OscMonitor.Proofs.Report.Isolation
import OscMonitor.Proofs.Report.Layout
import OscMonitor.Proofs.Report.Lines

/-!
# What a listing tells

Two replies with the same listing agree on nearly all that a listing shows. The outline of the lines
gives back the topics and the items of each; an item gives back the text of its field, since its
label is known; and the text of an integer or of a truth value gives back the value. A text is shown
as it is, so that a text which reads "unknown" looks like none at all, and doubles are rounded. That
is all that a listing hides.

The line on the progress shows three values at once. The first is a word, so it ends at the first
blank, and the second is an integer, so it ends at the first slash.

* `Kind.eq_of_listed_eq`, `Kind.confused_of_listed_eq` — the text of a value tells the value.
* `Listing.fieldText_of_progressLine?` — the line on the progress tells the two counts.
* `tellsAlike_of_lines` — what two reports with the same lines have in common.
-/

namespace OscMonitor

/-! ## Numbers and separators -/

namespace Text

theorem ofNat_injective : Function.Injective ofNat := by
  intro m n h
  have hValue := congrArg digitsValue h
  rwa [digitsValue_ofNat, digitsValue_ofNat] at hValue

/-- An integer is written with digits and a minus sign. -/
theorem not_mem_ofInt {p : CodePoint} (hMinus : p ≠ .scalar '-') (hDigit : p.isDigit = false)
    (n : Int) : p ∉ ofInt n := by
  have hNat : ∀ m, p ∉ ofNat m := by
    intro m hMem
    rw [isDigit_of_mem_ofNat hMem] at hDigit
    cases hDigit
  cases n with
  | ofNat n => exact hNat n
  | negSucc n => exact List.not_mem_cons_of_ne_of_not_mem hMinus (hNat (n + 1))

theorem ofInt_injective : Function.Injective ofInt := by
  have hApart : ∀ m n, ofNat m ≠ ofInt (.negSucc n) := by
    intro m n h
    have hMem : CodePoint.scalar '-' ∈ ofNat m := by
      rw [h]
      exact List.mem_cons_self
    exact absurd (isDigit_of_mem_ofNat hMem) (by decide)
  intro m n h
  match m, n, h with
  | .ofNat m, .ofNat n, h => rw [ofNat_injective h]
  | .negSucc m, .negSucc n, h =>
    have hSucc : m + 1 = n + 1 := ofNat_injective (List.cons.inj h).2
    rw [Nat.succ.inj hSucc]
  | .ofNat m, .negSucc n, h => exact absurd h (hApart m n)
  | .negSucc m, .ofNat n, h => exact absurd h.symm (hApart n m)

/-- A separator that occurs in neither of two texts tells where they end. -/
theorem append_cons_cancel {s s' t t' : Text} {p : CodePoint} (hs : p ∉ s) (hs' : p ∉ s')
    (h : s ++ p :: t = s' ++ p :: t') : s = s' ∧ t = t' := by
  have hTake : ∀ {u : Text} (v : Text), p ∉ u → (u ++ p :: v).takeWhile (· ≠ p) = u := by
    intro u v hu
    refine List.takeWhile_append_of_head (fun q hq => decide_eq_true ?_) (fun q hq => ?_)
    · rintro rfl
      exact hu hq
    · obtain rfl := Option.some.inj hq
      exact decide_eq_false fun hNe => hNe rfl
  have hFirst : s = s' := by
    rw [← hTake t hs, ← hTake t' hs', h]
  subst hFirst
  exact ⟨rfl, (List.cons.inj (List.append_cancel_left h)).2⟩

end Text

/-! ## Values -/

/-- Two values are the same, or they are one of each of two that look alike. -/
def EqualOrConfused {α : Type} (one other a b : α) : Prop :=
  a = b ∨ (a = one ∧ b = other) ∨ (a = other ∧ b = one)

theorem EqualOrConfused.map {α β : Type} (f : α → β) {one other a b : α}
    (h : EqualOrConfused one other a b) :
    EqualOrConfused (f one) (f other) (f a) (f b) := by
  rcases h with rfl | ⟨rfl, rfl⟩ | ⟨rfl, rfl⟩
  · exact .inl rfl
  · exact .inr (.inl ⟨rfl, rfl⟩)
  · exact .inr (.inr ⟨rfl, rfl⟩)

/-- Where a value stands for none, it is confused with none and with nothing else. -/
theorem equalOrConfused_of_getD {α : Type} {standard : α} {a b : Option α}
    (h : a.getD standard = b.getD standard) : EqualOrConfused none (some standard) a b := by
  match a, b, h with
  | none, none, _ => exact .inl rfl
  | some x, some y, h => exact .inl (congrArg some h)
  | some x, none, h => exact .inr (.inr ⟨congrArg some h, rfl⟩)
  | none, some y, h => exact .inr (.inl ⟨rfl, congrArg some h.symm⟩)

namespace Kind

/-- A value that may be missing, as a value of a document; null is none. -/
def spelled (k : Kind) : Option k.Carrier → Value
  | some x => k.toValue x
  | none => .null

/-- Values that are shown apart from each other and from nothing are told by what is shown. -/
theorem eq_of_elim_eq {α : Type} (shown : α → Text) (hInjective : Function.Injective shown)
    (hNe : ∀ x, shown x ≠ "unknown") {a b : Option α}
    (h : a.elim (Text.ofString "unknown") shown = b.elim (Text.ofString "unknown") shown) :
    a = b := by
  match a, b, h with
  | none, none, _ => rfl
  | some x, some y, h => rw [hInjective h]
  | some x, none, h => exact absurd h (hNe x)
  | none, some y, h => exact absurd h.symm (hNe y)

theorem ofInt_ne_unknown (n : Int) : Text.ofInt n ≠ "unknown" := by
  intro h
  have hMem : CodePoint.scalar 'u' ∈ Text.ofInt n := by
    rw [h]
    decide
  exact Text.not_mem_ofInt (by decide) (by decide) n hMem

/-- An integer or a truth value is told by its text. -/
theorem eq_of_listed_eq {k : Kind} (hReal : k ≠ .real) (hText : k ≠ .text) {a b : Option k.Carrier}
    (h : (k.spelled a).listed none = (k.spelled b).listed none) : a = b := by
  -- each kind has a spelling that is injective and never that of an unknown value
  cases k with
  | integer =>
    refine eq_of_elim_eq Text.ofInt Text.ofInt_injective ofInt_ne_unknown ?_
    cases a <;> cases b <;> exact h
  | natural =>
    refine eq_of_elim_eq (fun n => Text.ofInt (Int.ofNat n)) ?_ (fun n => ofInt_ne_unknown _) ?_
    · intro m n hSame
      exact Int.ofNat.inj (Text.ofInt_injective hSame)
    · cases a <;> cases b <;> exact h
  | flag =>
    refine eq_of_elim_eq (fun c => (Value.bool c).display) ?_ ?_ ?_
    · decide
    · decide
    · cases a <;> cases b <;> exact h
  | real => exact absurd rfl hReal
  | text => exact absurd rfl hText

/-- A text is told by what is shown of it, but for one that reads as if there were none. -/
theorem confused_of_listed_eq {a b : Option Text}
    (h : (text.spelled a).listed none = (text.spelled b).listed none) :
    EqualOrConfused .null (.text "unknown") (text.spelled a) (text.spelled b) := by
  have hShown : ∀ a, (text.spelled a).listed none = a.getD (Text.ofString "unknown") := by
    intro a
    cases a <;> rfl
  rw [hShown, hShown] at h
  exact (equalOrConfused_of_getD h).map text.spelled

end Kind

/-- A status that reads as if it were unknown names no phase. -/
theorem Phase.ofStatus_congr {a b : Option Text}
    (h : EqualOrConfused none (some (Text.ofString "unknown")) a b) :
    ofStatus a = ofStatus b := by
  rcases h with rfl | ⟨rfl, rfl⟩ | ⟨rfl, rfl⟩
  · rfl
  · decide
  · decide

/-! ## Lines -/

/-- The topic that a block of fields belongs to. -/
def Block.topic : Block → Topic
  | disciplining => .disciplining
  | oscillator => .oscillator
  | clock => .clock
  | gnss => .gnss
  | calibration => .discipliningParameters

theorem Block.mem_parts_topic (b : Block) : .block b ∈ b.topic.parts := by
  cases b <;> decide

namespace Listing

variable {r r' : Report}

theorem item_cancel {n : Nat} {label text text' : Text}
    (h : item n label text = item n label text') : text = text' :=
  List.append_cancel_left h

/-- A line that shows a field tells its text. -/
theorem fieldText_of_lines {depth : Nat} {fields : List Field}
    (h : fields.map (fieldLine r depth) = fields.map (fieldLine r' depth)) :
    ∀ f ∈ fields, fieldText r f = fieldText r' f :=
  fun f hf => item_cancel (List.map_inj_left.mp h f hf)

/-- Only doubles have a style of their own. -/
theorem fieldText_eq_listed (r : Report) {f : Field} (h : f.kind ≠ .real) :
    fieldText r f = (fieldValue r f).listed none := by
  have hStyle : (style f).precision = none ∧ (style f).unit = none := by
    cases f <;> first | exact ⟨rfl, rfl⟩ | exact absurd rfl h
  unfold fieldText
  rw [hStyle.1, hStyle.2]

theorem fieldValue_eq_spelled (r : Report) (f : Field) :
    fieldValue r f = f.kind.spelled (r.value f) := by
  unfold fieldValue Kind.spelled
  cases r.value f <;> rfl

/-- The text of an integer or of a truth value tells the value of the field. -/
theorem value_eq_of_fieldText {f : Field} (hReal : f.kind ≠ .real) (hText : f.kind ≠ .text)
    (h : fieldText r f = fieldText r' f) : r.value f = r'.value f := by
  rw [fieldText_eq_listed r hReal, fieldText_eq_listed r' hReal, fieldValue_eq_spelled,
    fieldValue_eq_spelled] at h
  exact Kind.eq_of_listed_eq hReal hText h

theorem fieldValue_of_fieldText {f : Field} (hText : f.kind = .text)
    (h : fieldText r f = fieldText r' f) :
    EqualOrConfused .null (.text "unknown") (fieldValue r f) (fieldValue r' f) := by
  have hReal : f.kind ≠ .real := by
    rw [hText]
    decide
  rw [fieldText_eq_listed r hReal, fieldText_eq_listed r' hReal] at h
  rw [fieldValue_eq_spelled, fieldValue_eq_spelled] at h ⊢
  generalize r.value f = a, r'.value f = b at h ⊢
  revert a b
  rw [hText]
  intro a b h
  exact Kind.confused_of_listed_eq h

theorem phase_of_fieldText (h : fieldText r .status = fieldText r' .status) :
    r.phase = r'.phase := by
  have hShown : ∀ r : Report,
      fieldText r .status = (r.value .status).getD (Text.ofString "unknown") := by
    intro r
    rw [fieldText_eq_listed r (by decide)]
    unfold fieldValue
    cases r.value .status <;> rfl
  rw [hShown, hShown] at h
  exact Phase.ofStatus_congr (equalOrConfused_of_getD h)

theorem isWord_progress (r : Report) :
    Text.IsWord ((fieldValue r .convergenceProgress).listed (some 2)) := by
  unfold fieldValue
  cases r.value .convergenceProgress with
  | none => exact show Text.IsWord "unknown" by decide
  | some x => exact Double.isWord_fixed 2 x

theorem slash_not_mem_phaseCount (r : Report) :
    CodePoint.scalar '/' ∉ fieldText r .phaseCount := by
  rw [fieldText_eq_listed r (by decide)]
  unfold fieldValue
  cases r.value .phaseCount with
  | none => exact show CodePoint.scalar '/' ∉ Text.ofString "unknown" by decide
  | some n => exact Text.not_mem_ofInt (by decide) (by decide) n

/-- The line on the progress tells the two counts. -/
theorem fieldText_of_progressLine? (hPhase : r.phase = r'.phase) (hNamed : r.phase ≠ .other)
    (h : progressLine? r = progressLine? r') :
    fieldText r .phaseCount = fieldText r' .phaseCount ∧
      fieldText r .phaseThreshold = fieldText r' .phaseThreshold := by
  obtain ⟨label, hLabel⟩ : ∃ label, r.phase.label? = some label := by
    cases hCase : r.phase with
    | other => exact absurd hCase hNamed
    | _ => exact ⟨_, rfl⟩
  have hBlank : Text.ofString " % (" = .scalar ' ' :: Text.ofString "% (" := by decide
  have hSlash : Text.ofString "/" = [.scalar '/'] := by decide
  have hNoBlank : ∀ r : Report, CodePoint.scalar ' ' ∉
      (fieldValue r .convergenceProgress).listed (some 2) :=
    fun r hMem => absurd (isWord_progress r _ hMem).1 (by decide)
  unfold progressLine? at h
  rw [← hPhase, hLabel, Option.map_some, Option.map_some, Option.some.injEq] at h
  simp only [List.append_assoc, hBlank, hSlash, List.cons_append, List.nil_append] at h
  -- what stands before the progress is the same in both lines
  obtain ⟨-, hCounts⟩ := Text.append_cons_cancel (hNoBlank r) (hNoBlank r')
    (List.append_cancel_left h)
  obtain ⟨hCount, hThreshold⟩ := Text.append_cons_cancel (slash_not_mem_phaseCount r)
    (slash_not_mem_phaseCount r') (List.append_cancel_left hCounts)
  exact ⟨hCount, List.append_cancel_right hThreshold⟩

/-! ## Topics -/

/-- The items on the disciplining tell the fields that have a line, and the progress. -/
theorem fieldText_of_items_disciplining (h : items r .disciplining = items r' .disciplining) :
    (∀ f ∈ discipliningFields, fieldText r f = fieldText r' f) ∧
      progressLine? r = progressLine? r' := by
  obtain ⟨hFields, hProgress⟩ := List.append_inj
    (show discipliningFields.map (fieldLine r 1) ++ (progressLine? r).toList =
      discipliningFields.map (fieldLine r' 1) ++ (progressLine? r').toList from h) rfl
  refine ⟨fieldText_of_lines hFields, ?_⟩
  simpa using congrArg List.head? hProgress

theorem groups_of_items
    (h : items r .discipliningParameters = items r' .discipliningParameters) :
    groups r = groups r' := by
  have hOutline := congrArg (outline 1) h
  rw [outline_items_discipliningParameters, outline_items_discipliningParameters] at hOutline
  exact (Prod.mk.inj hOutline).2

/-- Each block within the disciplining parameters is found by its heading. -/
theorem filter_groups (r : Report) :
    (groups r).filter (fun b => b.1 = heading "Calibration parameters") =
        (if r.calibrated then
          [(heading "Calibration parameters", Block.calibration.fields.map (fieldLine r 2))]
        else []) ∧
      (groups r).filter (fun b => b.1 = heading "Temperature table") =
        if r.table.isEmpty then []
        else [(heading "Temperature table",
          r.sortedTable.map fun (label, text) => item 2 label text)] := by
  have hApart : heading "Calibration parameters" ≠ heading "Temperature table" := by decide
  unfold groups
  constructor
  · split <;> split <;> simp [hApart.symm]
  · split <;> split <;> simp [hApart]

/-- The blocks within the disciplining parameters tell whether there is a calibration, the fields of
it, and how many entries the table has. -/
theorem told_of_groups (h : groups r = groups r') :
    r.calibrated = r'.calibrated ∧
      (r.calibrated = true → ∀ f ∈ Block.calibration.fields, fieldText r f = fieldText r' f) ∧
      r.table.length = r'.table.length := by
  -- the two headings differ, so that the blocks can be told apart by them
  obtain ⟨hCalibration, hTable⟩ := filter_groups r
  rw [h, (filter_groups r').1] at hCalibration
  rw [h, (filter_groups r').2] at hTable
  have hEntries : ∀ r : Report, ((if r.table.isEmpty then []
      else [(heading "Temperature table",
        r.sortedTable.map fun (label, text) => item 2 label text)]).flatMap Prod.snd).length =
      r.table.length := by
    intro r
    split
    · next hEmpty => rw [List.isEmpty_iff.mp hEmpty]; rfl
    · simp [Report.sortedTable]
  refine ⟨?_, fun hCalibrated => ?_, ?_⟩
  · cases hc : r.calibrated <;> cases hc' : r'.calibrated <;> simp [hc, hc'] at hCalibration ⊢
  · rw [if_pos hCalibrated] at hCalibration
    cases hc' : r'.calibrated with
    | false => simp [hc'] at hCalibration
    | true =>
      rw [if_pos hc', List.singleton_inj, Prod.mk.injEq] at hCalibration
      exact fieldText_of_lines hCalibration.2.symm
  · rw [← hEntries r, ← hEntries r', hTable]

theorem take_headline (r : Report) (topic : Topic) :
    (headline r topic).take 18 = (title topic).take 18 := by
  cases topic with
  | actionRequested => exact List.take_left' rfl
  | _ => rfl

/-- The first words of the headings tell the topics apart. -/
theorem take_title_injective : Function.Injective fun topic => (title topic).take 18 := by
  have hTitles : ∀ topic ∈ Topic.all, ∀ topic' ∈ Topic.all,
      (title topic).take 18 = (title topic').take 18 → topic = topic' := by decide
  intro topic topic' h
  exact hTitles topic topic.mem_all topic' topic'.mem_all h

/-- The lines of a report tell the topics, and the lines of each. -/
theorem topics_of_lines (h : r.lines = r'.lines) :
    r.topics = r'.topics ∧ ∀ topic ∈ r.topics,
      headline r topic = headline r' topic ∧ items r topic = items r' topic := by
  have hBlocks : r.topics.map (fun topic => (headline r topic, items r topic)) =
      r'.topics.map fun topic => (headline r' topic, items r' topic) := by
    have hOutline := congrArg (outline 0) h
    rw [outline_lines, outline_lines] at hOutline
    exact (Prod.mk.inj hOutline).2
  have hTopics : r.topics = r'.topics := by
    have hWords := congrArg (List.map fun b => b.1.take 18) hBlocks
    simp only [List.map_map, Function.comp_def, take_headline] at hWords
    exact List.map_injective_iff.mpr take_title_injective hWords
  refine ⟨hTopics, fun topic hTopic => ?_⟩
  rw [← hTopics] at hBlocks
  exact Prod.mk.inj (List.map_inj_left.mp hBlocks topic hTopic)

end Listing

/-! ## Reports -/

namespace Report

open Listing

/-- Without a calibration no field of it is known. -/
theorem value_of_not_calibrated {o : Object} (h : (ofDocument o).calibrated = false) {f : Field}
    (hBlock : f.block = .calibration) : (ofDocument o).value f = none := by
  have hNone : (Part.block .calibration).value? o = none :=
    Option.isNone_iff_eq_none.mp (Option.isSome_eq_false_iff.mp h)
  refine value_eq_none ?_
  rw [hBlock]
  exact Part.members_of_value?_eq_none hNone

theorem value_of_not_mem {o : Object} {f : Field} (h : f.block.topic ∉ (ofDocument o).topics) :
    (ofDocument o).value f = none := by
  have hTopic : f.block.topic ≠ .actionRequested := by
    cases f.block <;> decide
  have hField : f ∈ (Part.block f.block).fields := (f.mem_fields_iff f.block).mpr rfl
  exact (knowsNothing_of_not_mem hTopic h).values _ f.block.mem_parts_topic f hField

/-- Two reports with the same lines show the same text of a field. The two counts are shown in the
phases that have a name, and doubles do not count. -/
theorem fieldText_of_lines_eq {o o' : Object} (h : (ofDocument o).lines = (ofDocument o').lines)
    {f : Field} (hReal : f.kind ≠ .real)
    (hCount : f = .phaseCount ∨ f = .phaseThreshold →
      (ofDocument o).phase = (ofDocument o').phase ∧ (ofDocument o).phase ≠ .other) :
    fieldText (ofDocument o) f = fieldText (ofDocument o') f := by
  obtain ⟨hTopics, hSame⟩ := topics_of_lines h
  have hField : f ∈ f.block.fields := (f.mem_fields_iff f.block).mpr rfl
  -- a topic without a heading has no value in either report
  by_cases hPresent : f.block.topic ∈ (ofDocument o).topics
  · obtain ⟨-, hItems⟩ := hSame _ hPresent
    cases hBlock : f.block with
    | disciplining =>
      rw [hBlock] at hField hItems
      obtain ⟨hListed, hProgress⟩ := fieldText_of_items_disciplining hItems
      have hCases : ∀ f ∈ Block.disciplining.fields, f ∈ discipliningFields ∨
          f = .phaseCount ∨ f = .phaseThreshold ∨ f.kind = .real := by decide
      rcases hCases f hField with hf | rfl | rfl | hf
      · exact hListed f hf
      · obtain ⟨hPhase, hNamed⟩ := hCount (.inl rfl)
        exact (fieldText_of_progressLine? hPhase hNamed hProgress).1
      · obtain ⟨hPhase, hNamed⟩ := hCount (.inr rfl)
        exact (fieldText_of_progressLine? hPhase hNamed hProgress).2
      · exact absurd hf hReal
    | oscillator | clock | gnss =>
      rw [hBlock] at hField hItems
      exact fieldText_of_lines hItems f hField
    | calibration =>
      rw [hBlock] at hField hItems
      obtain ⟨hCalibrated, hFields, -⟩ := told_of_groups (groups_of_items hItems)
      cases hKnown : (ofDocument o).calibrated with
      | true => exact hFields hKnown f hField
      | false =>
        refine fieldText_congr ?_
        rw [value_of_not_calibrated hKnown hBlock,
          value_of_not_calibrated (hCalibrated ▸ hKnown) hBlock]
  · refine fieldText_congr ?_
    rw [value_of_not_mem hPresent, value_of_not_mem (hTopics ▸ hPresent)]

/-- What two reports have in common when their listings are the same. -/
structure TellsAlike (r r' : Report) : Prop where
  topics : r.topics = r'.topics
  phase : r.phase = r'.phase
  calibrated : r.calibrated = r'.calibrated
  table : r.table.length = r'.table.length
  -- Integers and truth values are the same, but for two counts that are shown in a phase with a
  -- name.
  exact : ∀ f : Field, f.kind = .integer ∨ f.kind = .natural ∨ f.kind = .flag →
    (f = .phaseCount ∨ f = .phaseThreshold → r.phase ≠ .other) → r.value f = r'.value f
  -- A text may be confused with none.
  text : ∀ f : Field, f.kind = .text →
    EqualOrConfused .null (.text "unknown") (fieldValue r f) (fieldValue r' f)
  action : EqualOrConfused none (some (Text.ofString "unknown")) r.action r'.action

variable {o o' : Object}

theorem phase_of_lines_eq (h : (ofDocument o).lines = (ofDocument o').lines) :
    (ofDocument o).phase = (ofDocument o').phase := by
  refine phase_of_fieldText (fieldText_of_lines_eq h (by decide) ?_)
  rintro (hStatus | hStatus) <;> cases hStatus

/-- The lines tell whether there is a calibration, and how many entries the table has. -/
theorem parameters_of_lines_eq (h : (ofDocument o).lines = (ofDocument o').lines) :
    (ofDocument o).calibrated = (ofDocument o').calibrated ∧
      (ofDocument o).table.length = (ofDocument o').table.length := by
  obtain ⟨hTopics, hSame⟩ := topics_of_lines h
  by_cases hPresent : Topic.discipliningParameters ∈ (ofDocument o).topics
  · obtain ⟨-, hItems⟩ := hSame _ hPresent
    obtain ⟨hCalibrated, -, hTable⟩ := told_of_groups (groups_of_items hItems)
    exact ⟨hCalibrated, hTable⟩
  · have hNothing := knowsNothing_of_not_mem (by decide) hPresent
    have hNothing' := knowsNothing_of_not_mem (by decide) (hTopics ▸ hPresent)
    rw [hNothing.calibrated rfl, hNothing'.calibrated rfl, hNothing.table rfl, hNothing'.table rfl]
    exact ⟨rfl, rfl⟩

theorem action_of_lines_eq (h : (ofDocument o).lines = (ofDocument o').lines) :
    EqualOrConfused none (some (Text.ofString "unknown")) (ofDocument o).action
      (ofDocument o').action := by
  obtain ⟨hTopics, hSame⟩ := topics_of_lines h
  by_cases hPresent : Topic.actionRequested ∈ (ofDocument o).topics
  · obtain ⟨hHeadline, -⟩ := hSame _ hPresent
    have hShown : (ofDocument o).action.getD "unknown" = (ofDocument o').action.getD "unknown" :=
      List.append_cancel_left hHeadline
    exact equalOrConfused_of_getD hShown
  · rw [action_of_not_mem hPresent, action_of_not_mem (hTopics ▸ hPresent)]
    exact .inl rfl

/-- **The listing does not mislead.** When the listings of two replies are the same, line by line,
their reports tell the same topics, the same phase, a calibration or none, and as many temperatures.
They agree on every integer and on every truth value that is shown, and on every text but for one
that reads as if it were unknown. -/
theorem tellsAlike_of_lines {reply reply' : Reply} {r r' : Report} (h : ofReply reply = .ok r)
    (h' : ofReply reply' = .ok r') (hLines : r.lines = r'.lines) : r.TellsAlike r' := by
  obtain ⟨o, -, rfl⟩ := ofReply_eq_ok_iff.mp h
  obtain ⟨o', -, rfl⟩ := ofReply_eq_ok_iff.mp h'
  have hPhase := phase_of_lines_eq hLines
  obtain ⟨hCalibrated, hTable⟩ := parameters_of_lines_eq hLines
  -- what is listed of a field tells its value: exactly for a number or a truth value, and up to
  -- an unknown one for a text
  refine ⟨(topics_of_lines hLines).1, hPhase, hCalibrated, hTable, ?_, ?_,
    action_of_lines_eq hLines⟩
  · intro f hKind hCount
    have hKinds : f.kind ≠ .real ∧ f.kind ≠ .text := by
      rcases hKind with hKind | hKind | hKind <;> rw [hKind] <;> decide
    refine value_eq_of_fieldText hKinds.1 hKinds.2 (fieldText_of_lines_eq hLines hKinds.1 ?_)
    exact fun hf => ⟨hPhase, hCount hf⟩
  · intro f hText
    refine fieldValue_of_fieldText hText (fieldText_of_lines_eq hLines ?_ ?_)
    · rw [hText]
      decide
    · rintro (rfl | rfl) <;> cases hText

/-- A clock whose class is unknown and one whose class reads so, with an offset in two spellings. -/
theorem tellsAlike_of_lines_of_unknown :
    let reply : Reply := .text "\x7b\"clock\": \x7b\"class\": null, \"offset\": \"3\"\x7d\x7d"
    let reply' : Reply := .text "\x7b\"clock\": \x7b\"class\": \"unknown\", \"offset\": 3\x7d\x7d"
    ∃ r r', ofReply reply = .ok r ∧ ofReply reply' = .ok r' ∧ r.lines = r'.lines ∧
      r.value .offset = r'.value .offset ∧ r.value .clockClass ≠ r'.value .clockClass ∧
      EqualOrConfused .null (.text "unknown") (fieldValue r .clockClass)
        (fieldValue r' .clockClass) := by
  intro reply reply'
  let o : Object := [("clock", .object [("class", .null), ("offset", .text "3")])]
  let o' : Object := [("clock", .object [("class", .text "unknown"), ("offset", .int 3)])]
  have hDocument : reply.document = .ok o := by
    subst reply o
    cbv
  have hDocument' : reply'.document = .ok o' := by
    subst reply' o'
    cbv
  have hReport : ofReply reply = .ok (ofDocument o) := ofReply_eq_ok_iff.mpr ⟨o, hDocument, rfl⟩
  have hReport' : ofReply reply' = .ok (ofDocument o') :=
    ofReply_eq_ok_iff.mpr ⟨o', hDocument', rfl⟩
  have hLines : (ofDocument o).lines = (ofDocument o').lines := by
    subst o o'
    cbv
  have hAlike := tellsAlike_of_lines hReport hReport' hLines
  refine ⟨ofDocument o, ofDocument o', hReport, hReport', hLines,
    hAlike.exact .offset (.inl rfl) ?_, ?_, hAlike.text .clockClass rfl⟩
  · rintro (hf | hf) <;> cases hf
  · intro hSame
    have hNone : (none : Option Text) = some "unknown" := hSame
    cases hNone

end Report

end OscMonitor
