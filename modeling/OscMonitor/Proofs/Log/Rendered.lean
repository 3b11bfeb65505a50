import OscMonitor.Log.Line
import OscMonitor.Proofs.Document.Limits

/-!
# When there is a line of an event

An event has a line when the values that stand on it can be written: there are levels enough for
each of them, and none holds an integer with too many digits. As JSON that is asked of all that
stands for the event, and the order of the members does not matter. On the console it is asked of
the values that are shown, and what becomes a block has to be a text.

* `Value.height_arranged`, `Value.integersShort_arranged` — no arrangement matters.
* `Event.Renders` — what an event needs for a line, in each format.
* `Event.exists_line_iff` — it has a line exactly then.
-/

namespace OscMonitor

/-! ## Arranged values -/

namespace Value

theorem heightMembers_perm {leaf : Nat} {o o' : Object} (h : o.Perm o') :
    heightMembers leaf o = heightMembers leaf o' :=
  Nat.le_antisymm
    (heightMembers_le_iff.mpr fun m hm => heightMembers_le_iff.mp le_rfl m (h.mem_iff.mp hm))
    (heightMembers_le_iff.mpr fun m hm => heightMembers_le_iff.mp le_rfl m (h.mem_iff.mpr hm))

mutual

theorem height_arranged (leaf : Nat) (a : Arrangement) :
    ∀ v : Value, (v.arranged a).height leaf = v.height leaf
  | .null | .bool _ | .int _ | .float _ | .text _ => rfl
  | .list items => by rw [arranged, height, height, heightItems_arranged leaf a items]
  | .object members => by
    rw [arranged, height, height, heightMembers_perm (a.perm _),
      heightMembers_arranged leaf a members]

theorem heightItems_arranged (leaf : Nat) (a : Arrangement) :
    ∀ items : List Value, heightItems leaf (arrangedItems a items) = heightItems leaf items
  | [] => rfl
  | v :: items => by
    rw [arrangedItems, heightItems, heightItems, height_arranged leaf a v,
      heightItems_arranged leaf a items]

theorem heightMembers_arranged (leaf : Nat) (a : Arrangement) :
    ∀ members : List (Text × Value),
      heightMembers leaf (arrangedMembers a members) = heightMembers leaf members
  | [] => rfl
  | (_, v) :: members => by
    rw [arrangedMembers, heightMembers, heightMembers, height_arranged leaf a v,
      heightMembers_arranged leaf a members]

end

mutual

theorem integersShort_arranged (a : Arrangement) :
    ∀ v : Value, (v.arranged a).IntegersShort ↔ v.IntegersShort
  | .null | .bool _ | .int _ | .float _ | .text _ => Iff.rfl
  | .list items => by
    rw [arranged, integersShort_list_iff, integersShort_list_iff]
    exact integersShort_arrangedItems a items
  | .object members => by
    rw [arranged, integersShort_object_iff, integersShort_object_iff,
      ← integersShort_arrangedMembers a members]
    exact forall_congr' fun m => imp_congr_left (a.perm _).mem_iff

theorem integersShort_arrangedItems (a : Arrangement) : ∀ items : List Value,
    (∀ v ∈ arrangedItems a items, v.IntegersShort) ↔ ∀ v ∈ items, v.IntegersShort
  | [] => Iff.rfl
  | v :: items => by
    rw [arrangedItems, List.forall_mem_cons, List.forall_mem_cons, integersShort_arranged a v,
      integersShort_arrangedItems a items]

theorem integersShort_arrangedMembers (a : Arrangement) : ∀ members : List (Text × Value),
    (∀ m ∈ arrangedMembers a members, m.2.IntegersShort) ↔ ∀ m ∈ members, m.2.IntegersShort
  | [] => Iff.rfl
  | (_, v) :: members => by
    rw [arrangedMembers, List.forall_mem_cons, List.forall_mem_cons, integersShort_arranged a v,
      integersShort_arrangedMembers a members]

end

end Value

/-! ## Lines -/

namespace Log

/-- What an event needs for a line. As JSON, every member of the object that stands for it can be
written. On the console, every value that is shown can be, and the blocks are texts. -/
def Event.Renders (m : Moment) (e : Event) : Format → Prop
  | .json => ∀ field ∈ Line.entry m e, field.2.height 0 < m.room ∧ field.2.IntegersShort
  | .console =>
    (∀ v ∈ Line.shownValues (Line.answered m e), v.height 1 ≤ m.room ∧ v.IntegersShort) ∧
      ∀ name ∈ (["stack", "exception"] : List Text), ∀ v, (Line.answered m e).get? name = some v →
        v = .null ∨ ∃ t, v = .text t

namespace Line

variable {m : Moment} {e : Event} {line : Text}

theorem json?_eq_ok_iff : json? m e = .ok line ↔ e.Renders m .json ∧ json m e = line := by
  -- the object takes a level itself
  obtain ⟨room, hRoom⟩ : ∃ room, m.room = room + 1 :=
    Nat.exists_eq_add_one.mpr (Nat.lt_of_lt_of_le (by decide) m.enough)
  have hCheck : (document m e).check m.room = .ok () ↔ e.Renders m .json := by
    rw [Value.check_eq_ok_iff, document, Value.height_arranged, Value.integersShort_arranged,
      Value.integersShort_object_iff, Value.height, hRoom, Nat.add_le_add_iff_right,
      Value.heightMembers_le_iff, ← forall₂_and, Event.Renders, hRoom]
    exact forall₂_congr fun field _ => and_congr_left' Nat.lt_succ_iff.symm
  rw [json?, mapError_eq_ok_iff, Value.print?_eq_ok_iff, hCheck]
  rfl

theorem exists_block?_iff {fields : Object} {name : Text} :
    (∃ block, block? fields name = .ok block) ↔
      ∀ v, fields.get? name = some v → v = .null ∨ ∃ t, v = .text t := by
  unfold block?
  cases hField : fields.get? name with
  | none => exact ⟨fun _ => nofun, fun _ => ⟨_, rfl⟩⟩
  | some v =>
    have hOnly : (∀ w, some v = some w → w = .null ∨ ∃ t, w = .text t) ↔
        v = .null ∨ ∃ t, v = .text t :=
      ⟨fun h => h v rfl, fun h w hw => Option.some.inj hw ▸ h⟩
    rw [hOnly]
    cases v with
    | null => exact ⟨fun _ => .inl rfl, fun _ => ⟨_, rfl⟩⟩
    | text t => exact ⟨fun _ => .inr ⟨t, rfl⟩, fun _ => ⟨_, rfl⟩⟩
    | _ => simp

theorem exists_console?_iff : (∃ line, console? m e = .ok line) ↔ e.Renders m .console := by
  have hShown : (shownValues (answered m e)).forM
      (fun v => (v.checkShown m.room).mapError LineFault.value) = .ok () ↔
        ∀ v ∈ shownValues (answered m e), v.height 1 ≤ m.room ∧ v.IntegersShort := by
    rw [forM_eq_ok_iff]
    exact forall₂_congr fun v _ => mapError_eq_ok_iff.trans Value.checkShown_eq_ok_iff
  have hBlocks : (∀ name ∈ (["stack", "exception"] : List Text), ∀ v,
      (answered m e).get? name = some v → v = .null ∨ ∃ t, v = .text t) ↔
        (∃ stack, block? (answered m e) "stack" = .ok stack) ∧
          ∃ exception, block? (answered m e) "exception" = .ok exception := by
    rw [exists_block?_iff, exists_block?_iff, List.forall_mem_cons, List.forall_mem_singleton]
  rw [Event.Renders, hBlocks, ← hShown]
  unfold console?
  dsimp only
  simp only [bind_eq_ok_iff]
  constructor
  · rintro ⟨line, _, hAll, stack, hStack, exception, hException, -⟩
    exact ⟨hAll, ⟨stack, hStack⟩, exception, hException⟩
  · rintro ⟨hAll, ⟨stack, hStack⟩, exception, hException⟩
    exact ⟨_, (), hAll, stack, hStack, exception, hException, rfl⟩

end Line

/-- **When there is a line of an event**: exactly when it has what it needs for one. -/
theorem Event.exists_line_iff {m : Moment} {e : Event} {f : Format} :
    (∃ line, e.line? f m = .ok line) ↔ e.Renders m f := by
  cases f with
  | console => exact Line.exists_console?_iff
  | json =>
    refine (exists_congr fun line => Line.json?_eq_ok_iff).trans ?_
    exact ⟨fun ⟨_, h, _⟩ => h, fun h => ⟨_, h, rfl⟩⟩

end Log

end OscMonitor
