import OscMonitor.Proofs.Document.Paired
import OscMonitor.Proofs.Report.Raw
import OscMonitor.Report.Listing

/-!
# The lines of a report keep their texts apart

A line of a listing puts texts of the daemon between signs and words of its own. In a report that
was read from bytes these texts are joined, and the signs keep them apart, so no line has a high
half of a surrogate pair right before a low one.

* `Text.Joined.bridge` — joined texts with ASCII between them are joined.
* `Report.joined_of_mem_lines` — the lines of a report that was read from bytes.
-/

namespace OscMonitor

/-! ## Texts with ASCII between them -/

namespace Text

theorem not_half_of_ascii {p : CodePoint} (h : p.number < 0x80) :
    p.isHighHalf = false ∧ p.isLowHalf = false := by
  cases p with
  | scalar c => exact ⟨rfl, rfl⟩
  | surrogate offset =>
    simp only [CodePoint.number] at h
    omega

theorem IsAscii.joined {t : Text} (h : t.IsAscii) : t.Joined := by
  induction t with
  | nil => exact .nil
  | cons p t ih =>
    obtain ⟨hp, ht⟩ := List.forall_mem_cons.mp h
    refine List.isChain_cons.mpr ⟨fun q _ => ?_, ih ht⟩
    rw [(not_half_of_ascii hp).1]
    rintro ⟨hHigh, -⟩
    cases hHigh

/-- Joined texts with ASCII between them are joined. -/
theorem Joined.bridge {s glue t : Text} (hs : s.Joined) (hGlue : glue.IsAscii) (hNe : glue ≠ [])
    (ht : t.Joined) : Joined (s ++ glue ++ t) := by
  have hFirst : Joined (s ++ glue) := by
    refine List.isChain_append.mpr ⟨hs, hGlue.joined, fun p _ q hq => ?_⟩
    rw [(not_half_of_ascii (hGlue q (List.mem_of_mem_head? hq))).2]
    rintro ⟨-, hLow⟩
    cases hLow
  refine List.isChain_append.mpr ⟨hFirst, ht, fun p hp q _ => ?_⟩
  rw [List.getLast?_append_of_ne_nil _ hNe] at hp
  rw [(not_half_of_ascii (hGlue p (List.mem_of_getLast? hp))).1]
  rintro ⟨hHigh, -⟩
  cases hHigh

theorem Joined.after {glue t : Text} (ht : t.Joined) (hGlue : glue.IsAscii) (hNe : glue ≠ []) :
    Joined (glue ++ t) :=
  Joined.bridge .nil hGlue hNe ht

theorem Joined.before {s glue : Text} (hs : s.Joined) (hGlue : glue.IsAscii) (hNe : glue ≠ []) :
    Joined (s ++ glue) := by
  have hBridge := hs.bridge hGlue hNe .nil
  rwa [List.append_nil] at hBridge

end Text

/-! ## Values in a listing -/

theorem Double.isWord_withPlaces (places n : Nat) : (withPlaces places n).IsWord := by
  have hPadded : Text.IsWord (List.replicate (places + 1 - (Text.ofNat n).length)
      (CodePoint.scalar '0') ++ Text.ofNat n) :=
    .append (.replicate (by decide) _) (Text.isWord_ofNat n)
  unfold withPlaces
  dsimp only
  split
  · exact hPadded
  · exact .append (.append (hPadded.take _) (by decide)) (hPadded.drop _)

theorem Double.isWord_fixed (places : Nat) (x : Double) : (x.fixed places).IsWord := by
  cases x with
  | nan => exact show Text.IsWord "nan" by decide
  | infinite negative => exact .append (isWord_signText negative) (by decide)
  | finite negative m e h => exact .append (isWord_signText negative) (isWord_withPlaces _ _)

theorem Text.IsWord.joined {t : Text} (h : t.IsWord) : t.Joined :=
  Text.IsAscii.joined (Text.Within.isAscii (h.mono le_rfl (by decide)))

namespace Value

/-- A value without containers is listed as a joined text, if its own text is joined. -/
theorem joined_listed {v : Value} (h : v.Readable Text.Joined 0) (precision : Option Nat) :
    (v.listed precision).Joined := by
  -- all that is not a text is listed in ASCII
  cases v with
  | null => exact Text.IsAscii.joined (show Text.IsAscii "unknown" by decide)
  | bool b =>
    cases b with
    | false => exact Text.IsAscii.joined (show Text.IsAscii "False" by decide)
    | true => exact Text.IsAscii.joined (show Text.IsAscii "True" by decide)
  | int n => exact (Text.isWord_ofInt n).joined
  | float x =>
    cases precision with
    | none => exact (Double.isWord_text x).joined
    | some places => exact (Double.isWord_fixed places x).joined
  | text t =>
    cases h with
    | text h => exact h
  | list items => cases h
  | object members => cases h

theorem joined_plain {v : Value} {depth : Nat} (h : v.Readable Text.Joined depth) :
    v.plain.Joined := by
  have hPrinted : ∀ w : Value, (w.print .compact).Joined := fun w =>
    Text.IsAscii.joined (w.isAscii_print ⟨⟨[], rfl, nofun⟩, ⟨[], rfl, nofun⟩⟩)
  cases h with
  | text h => exact h
  | int _ => exact (Text.isWord_ofInt _).joined
  | float => exact (Double.isWord_text _).joined
  | null => exact hPrinted _
  | bool => exact hPrinted _
  | list _ => exact hPrinted _
  | object _ _ _ => exact hPrinted _

end Value

/-- What a text field takes is a text of the reply, or a number in full. -/
theorem Accept.joined_of_text {v : Value} {depth : Nat} (hv : v.Readable Text.Joined depth)
    {t : Text} (h : text v = .ok t) : t.Joined := by
  unfold text at h
  split at h
  · obtain rfl := Except.ok.inj h
    cases hv with
    | text h => exact h
  · obtain rfl := Except.ok.inj h
    exact (Text.isWord_ofInt _).joined
  · obtain rfl := Except.ok.inj h
    exact (Double.isWord_text _).joined
  · cases h

/-- What a field takes from a value whose texts are joined. -/
theorem Kind.readable_joined_of_accept {k : Kind} {v : Value} {depth : Nat}
    (hv : v.Readable Text.Joined depth) {x : k.Carrier} (h : k.accept v = .ok x) :
    (k.toValue x).Readable Text.Joined 0 := by
  have hReadable := Kind.readable_of_accept hv h
  cases k with
  | integer => exact .int (Value.readable_int_iff.mp hReadable)
  | natural => exact .int (Value.readable_int_iff.mp hReadable)
  | real => exact .float
  | flag => exact .bool
  | text => exact .text (Accept.joined_of_text hv h)

namespace Report

open Listing

variable {o : Object} {depth : Nat}

theorem readable_joined_fieldValue (h : (Value.object o).Readable Text.Joined depth) (f : Field) :
    (fieldValue (ofDocument o) f).Readable Text.Joined 0 := by
  unfold fieldValue
  split
  · next x hValue =>
    obtain ⟨v, hWire, hAccept⟩ := Field.decode_eq_some_iff.mp hValue
    exact Kind.readable_joined_of_accept (h.of_wire hWire) hAccept
  · exact .null

theorem joined_fieldText {r : Report} {f : Field} (h : (fieldValue r f).Readable Text.Joined 0) :
    (fieldText r f).Joined := by
  have hText := Value.joined_listed h (style f).precision
  unfold fieldText
  dsimp only
  split
  · next unit _ hUnit _ =>
    -- the only unit is that of lengths
    have hMetres : unit = "m" := by
      cases f <;> simp_all [style]
    subst hMetres
    rw [List.append_assoc]
    exact hText.before (by decide) (by decide)
  · exact hText

theorem isAscii_label (f : Field) : (style f).label.IsAscii := by
  cases f <;> decide

theorem joined_item (n : Nat) {label text : Text} (hLabel : label.Joined) (hText : text.Joined) :
    (item n label text).Joined := by
  have hTabs : Text.IsAscii (List.replicate n (CodePoint.scalar '\t') ++ "- ") :=
    Text.Within.isAscii (.append (.replicate (show 9 ≤ 9 ∧ 9 < 0x80 by decide) n) (by decide))
  exact (hLabel.after hTabs (by simp [Text.ofString])).bridge (by decide) (by decide) hText

theorem joined_fieldLine {r : Report} {f : Field} (h : (fieldValue r f).Readable Text.Joined 0)
    (n : Nat) : (fieldLine r n f).Joined :=
  joined_item n (isAscii_label f).joined (joined_fieldText h)

theorem joined_heading {title : Text} (h : title.IsAscii) : (heading title).Joined :=
  h.joined.after (by decide) (by decide)

theorem joined_progressLine? {r : Report} (h : ∀ f, (fieldValue r f).Readable Text.Joined 0)
    {line : Text} (hLine : progressLine? r = some line) : line.Joined := by
  unfold progressLine? at hLine
  obtain ⟨label, hLabel, rfl⟩ := Option.map_eq_some_iff.mp hLine
  have hTitle : Text.IsAscii (label ++ " convergence progress: ") := by
    cases hPhase : r.phase <;> rw [hPhase] at hLabel <;> cases hLabel <;> decide
  have hHeading : Text.IsAscii (heading (label ++ " convergence progress: ")) :=
    List.forall_mem_append.mpr ⟨by decide, hTitle⟩
  have hProgress := (Value.joined_listed (h .convergenceProgress) (some 2)).after hHeading
    (List.append_ne_nil_of_left_ne_nil (by decide) _)
  have hCount := hProgress.bridge (show Text.IsAscii " % (" by decide) (by decide)
    (joined_fieldText (h .phaseCount))
  have hThreshold := hCount.bridge (show Text.IsAscii "/" by decide) (by decide)
    (joined_fieldText (h .phaseThreshold))
  exact hThreshold.before (show Text.IsAscii ")" by decide) (by decide)

theorem joined_of_mem_tableLines {line : Text}
    (hTable : ∀ m ∈ (ofDocument o).table, m.1.Joined ∧ m.2.Joined)
    (hLine : line ∈ tableLines (ofDocument o)) : line.Joined := by
  unfold tableLines at hLine
  split at hLine
  · cases hLine
  · rcases List.mem_cons.mp hLine with rfl | hLine
    · exact joined_heading (by decide)
    · obtain ⟨m, hm, rfl⟩ := List.mem_map.mp hLine
      obtain ⟨hLabel, hText⟩ := hTable m (List.mem_mergeSort.mp hm)
      exact joined_item 2 hLabel hText

theorem joined_table (h : (Value.object o).Readable Text.Joined depth) :
    ∀ m ∈ (ofDocument o).table, m.1.Joined ∧ m.2.Joined := by
  intro m hm
  obtain ⟨⟨label, v⟩, hMember, rfl⟩ := List.mem_map.mp hm
  have hTable : ∀ w, Part.temperatureTable.value? o = some w → w.Readable Text.Joined depth :=
    fun _ hValue => h.of_value? hValue
  refine ⟨?_, Value.joined_plain (Value.Readable.of_mem_members hTable hMember)⟩
  -- the label is a name in an object of the reply
  unfold Part.members Value.members at hMember
  split at hMember
  · next members hValue =>
    obtain ⟨_, -, -, hNames, -⟩ := Value.readable_object_iff.mp (hTable _ hValue)
    exact hNames _ hMember
  · cases hMember

theorem joined_action (h : (Value.object o).Readable Text.Joined depth) :
    Text.Joined ((ofDocument o).action.getD "unknown") := by
  show Text.Joined ((actionOf o).getD "unknown")
  unfold actionOf
  split
  · exact Text.IsAscii.joined (by decide)
  · exact Text.IsAscii.joined (by decide)
  · next v _ hAction => exact Value.joined_plain (h.of_action? hAction)

theorem isAscii_title (topic : Topic) : (title topic).IsAscii := by
  cases topic <;> decide

theorem joined_of_mem_topicLines (h : (Value.object o).Readable Text.Joined depth) {topic : Topic}
    {line : Text} (hLine : line ∈ topicLines (ofDocument o) topic) : line.Joined := by
  have hFields := readable_joined_fieldValue h
  have hTitle : (title topic).Joined := (isAscii_title topic).joined
  have hFieldLines : ∀ {n : Nat} {fields : List Field},
      line ∈ fields.map (fieldLine (ofDocument o) n) → line.Joined := by
    intro n fields hMem
    obtain ⟨f, -, rfl⟩ := List.mem_map.mp hMem
    exact joined_fieldLine (hFields f) n
  -- the title, the lines of the fields, and what a topic has besides them
  cases topic with
  | disciplining =>
    rcases List.mem_cons.mp hLine with rfl | hLine
    · exact hTitle
    · rcases List.mem_append.mp hLine with hLine | hLine
      · exact hFieldLines hLine
      · exact joined_progressLine? hFields (Option.mem_toList.mp hLine)
  | oscillator | clock | gnss =>
    rcases List.mem_cons.mp hLine with rfl | hLine
    · exact hTitle
    · exact hFieldLines hLine
  | discipliningParameters =>
    rcases List.mem_cons.mp hLine with rfl | hLine
    · exact hTitle
    · rcases List.mem_append.mp hLine with hLine | hLine
      · unfold calibrationLines at hLine
        split at hLine
        · rcases List.mem_cons.mp hLine with rfl | hLine
          · exact joined_heading (by decide)
          · exact hFieldLines hLine
        · cases hLine
      · exact joined_of_mem_tableLines (joined_table h) hLine
  | actionRequested =>
    obtain rfl := List.mem_singleton.mp hLine
    exact (joined_action h).after (isAscii_title .actionRequested) (by decide)

/-- The lines of a report that was read from bytes have no halves to put together. -/
theorem joined_of_mem_lines {b : Bytes} {r : Report} (h : ofReply (.bytes b) = .ok r) {line : Text}
    (hLine : line ∈ r.lines) : line.Joined := by
  obtain ⟨o, hDocument, rfl⟩ := ofReply_eq_ok_iff.mp h
  obtain ⟨topic, -, hTopic⟩ := List.mem_flatMap.mp hLine
  exact joined_of_mem_topicLines (Reply.readable_joined_of_document hDocument) hTopic

end Report

end OscMonitor
