import OscMonitor.Proofs.Document.Nesting
import OscMonitor.Proofs.Text.Keyed

/-!
# Distinct names

A text may give a member twice; the reader keeps one. In a value that was read no object, however
deep, has two members of one name, so look-ups say all there is to say about an object but its
order.

* `Reader.State.step_distinct` — a step keeps what is being read free of double names.
* `Value.distinct_of_read` — and so is every value that was read.
-/

namespace OscMonitor

/-- No object within a value has two members of one name. -/
inductive Value.Distinct : Value → Prop
  | leaf {v : Value} (h : v.IsLeaf) : v.Distinct
  | list {items : List Value} (h : ∀ v ∈ items, v.Distinct) : (Value.list items).Distinct
  | object {members : Object} (hKeys : members.keys.Nodup) (h : ∀ m ∈ members, m.2.Distinct) :
      (Value.object members).Distinct

namespace Value

theorem distinct_list_iff {items : List Value} :
    (list items).Distinct ↔ ∀ v ∈ items, v.Distinct := by
  refine ⟨fun h => ?_, .list⟩
  cases h with
  | leaf h => exact h.elim
  | list h => exact h

theorem distinct_object_iff {o : Object} :
    (object o).Distinct ↔ o.keys.Nodup ∧ ∀ m ∈ o, m.2.Distinct := by
  refine ⟨fun h => ?_, fun h => .object h.1 h.2⟩
  cases h with
  | leaf h => exact h.elim
  | object hKeys h => exact ⟨hKeys, h⟩

theorem distinct_object_nil : (object []).Distinct :=
  .object List.nodup_nil fun _ h => absurd h List.not_mem_nil

/-- A further member keeps names distinct, as it takes the place of one of the same name. -/
theorem distinct_object_insert {o : Object} {key : Text} {v : Value} (ho : (object o).Distinct)
    (hv : v.Distinct) : (object (o.insert key v)).Distinct := by
  obtain ⟨hKeys, hMembers⟩ := distinct_object_iff.mp ho
  refine .object (Keyed.nodup_keys_insert hKeys key v) fun m hm => ?_
  rcases Keyed.mem_insert hm with rfl | hm
  · exact hv
  · exact hMembers m hm

theorem Distinct.of_get? {o : Object} (ho : (Value.object o).Distinct) {key : Text} {v : Value}
    (h : o.get? key = some v) : v.Distinct :=
  (distinct_object_iff.mp ho).2 _ (Keyed.mem_of_get?_eq_some h)

end Value

namespace Reader

/-- What an open container holds so far. -/
def Frame.value : Frame → Value
  | list before => .list before
  | object before _ => .object before

namespace State

/-- What is being read is free of double names. -/
def Distinct : State → Prop
  | value frames | firstItem frames | firstName frames => ∀ f ∈ frames, f.value.Distinct
  | name before frames | colon before _ frames =>
    (Value.object before).Distinct ∧ ∀ f ∈ frames, f.value.Distinct
  | after v frames => v.Distinct ∧ ∀ f ∈ frames, f.value.Distinct

variable {s s' : State} {l : Lexeme}

theorem takeValue_distinct {frames : List Frame} (hLeaf : ∀ v, l.token = .scalar v → v.IsLeaf)
    (hFrames : ∀ f ∈ frames, f.value.Distinct) (h : takeValue frames l = .ok s) : s.Distinct := by
  unfold takeValue at h
  split at h
  case h_1 v hToken =>
    obtain rfl := Except.ok.inj h
    exact ⟨.leaf (hLeaf v hToken), hFrames⟩
  case h_2 t hToken =>
    obtain rfl := Except.ok.inj h
    exact ⟨.leaf trivial, hFrames⟩
  case h_3 | h_4 =>
    split at h
    · cases h
    · obtain rfl := Except.ok.inj h
      exact hFrames
  all_goals cases h

theorem takeName_distinct {before : Object} {frames : List Frame}
    (hBefore : (Value.object before).Distinct) (hFrames : ∀ f ∈ frames, f.value.Distinct)
    (h : takeName before frames l = .ok s) : s.Distinct := by
  unfold takeName at h
  split at h
  · obtain rfl := Except.ok.inj h
    exact ⟨hBefore, hFrames⟩
  all_goals cases h

/-- A step keeps what is being read free of double names. -/
theorem step_distinct (hLeaf : ∀ v, l.token = .scalar v → v.IsLeaf) (hs : s.Distinct)
    (h : s.step l = .ok s') : s'.Distinct := by
  unfold step at h
  split at h
  case h_1 => exact takeValue_distinct hLeaf hs h
  case h_3 =>
    -- a first item is read within the list that it begins
    have hEmpty : (Value.list []).Distinct := .list fun _ hv => absurd hv List.not_mem_nil
    have hFrames : ∀ f ∈ Frame.list [] :: _, f.value.Distinct :=
      List.forall_mem_cons.mpr ⟨hEmpty, hs⟩
    exact takeValue_distinct hLeaf hFrames h
  case h_5 => exact takeName_distinct Value.distinct_object_nil hs h
  case h_6 => exact takeName_distinct hs.1 hs.2 h
  case h_12 => cases h
  case h_2 =>
    obtain rfl := Except.ok.inj h
    exact ⟨.list fun _ hv => absurd hv List.not_mem_nil, hs⟩
  case h_4 =>
    obtain rfl := Except.ok.inj h
    exact ⟨Value.distinct_object_nil, hs⟩
  case h_7 =>
    obtain rfl := Except.ok.inj h
    exact List.forall_mem_cons.mpr hs
  case h_8 v before frames _ =>
    obtain rfl := Except.ok.inj h
    obtain ⟨hv, hFrames⟩ := hs
    obtain ⟨hBefore, hFrames⟩ := List.forall_mem_cons.mp hFrames
    have hItems : ∀ w ∈ v :: before, w.Distinct :=
      List.forall_mem_cons.mpr ⟨hv, Value.distinct_list_iff.mp hBefore⟩
    exact List.forall_mem_cons.mpr ⟨.list hItems, hFrames⟩
  case h_9 v before frames _ =>
    obtain rfl := Except.ok.inj h
    obtain ⟨hv, hFrames⟩ := hs
    obtain ⟨hBefore, hFrames⟩ := List.forall_mem_cons.mp hFrames
    have hItems : ∀ w ∈ v :: before, w.Distinct :=
      List.forall_mem_cons.mpr ⟨hv, Value.distinct_list_iff.mp hBefore⟩
    exact ⟨.list fun w hw => hItems w (List.mem_reverse.mp hw), hFrames⟩
  case h_10 | h_11 =>
    obtain rfl := Except.ok.inj h
    obtain ⟨hv, hFrames⟩ := hs
    obtain ⟨hBefore, hFrames⟩ := List.forall_mem_cons.mp hFrames
    exact ⟨Value.distinct_object_insert hBefore hv, hFrames⟩

/-- What is read from a text is free of double names when what was read before is. -/
theorem distinct_of_run_scan {t : Text} {v : Value} (hs : s.Distinct)
    (h : s.run (Lexeme.scan t) = .ok v) : v.Distinct := by
  induction h using run_scan_induction with
  | done => exact hs.1
  | gap s p rest _ _ _ ih => exact ih hs
  | token s s' token p w rest _ _ hSpelled hStep _ ih =>
    refine ih (step_distinct ?_ hs hStep)
    -- the scalars of a text are leaves, as their spelling shows
    rintro v rfl
    cases hSpelled with
    | scalar hLeaf _ => exact hLeaf

end State

end Reader

/-- No object within a value that was read has two members of one name. -/
theorem Value.distinct_of_read {t : Text} {v : Value} (h : read t = .ok v) : v.Distinct := by
  rw [read] at h
  split at h
  · cases h
  · have hStart : (Reader.State.value []).Distinct := fun _ hf => absurd hf List.not_mem_nil
    exact Reader.State.distinct_of_run_scan hStart h

end OscMonitor
