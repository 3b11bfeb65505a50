import OscMonitor.Proofs.Document.Readable

/-!
# Documents as they are written

A text may write a member of an object more than once. The document as it is written has them all,
in their order, and the reader makes one of each name: in the place of the first, with the value of
the last. What is written is told by the tokens of a text, which spell one document at most.

Main results:

* `Value.tokens`, `Text.Writes` — the tokens of a document, and the texts that write it.
* `Value.tokens_injective` — the tokens spell one document.
* `Value.merged` — a document with the members of one name put together.
* `Text.exists_writes_of_read` — what is read is the document that is written, merged.
-/

namespace OscMonitor

namespace Keyed

variable {α : Type}

/-- Entries one after the other, the later ones in place of earlier ones under the same key. -/
def collect (before : Keyed α) (entries : Keyed α) : Keyed α :=
  entries.foldl (fun o m => o.insert m.1 m.2) before

theorem last?_cons (m : Text × α) (o : Keyed α) (key : Text) :
    last? (m :: o) key = (o.last? key).or (if m.1 = key then some m.2 else none) := by
  rw [last?, List.reverse_cons, get?_append]
  rfl

theorem last?_map_value {β : Type} (f : α → β) (o : Keyed α) (key : Text) :
    last? (o.map fun (k, v) => (k, f v)) key = (o.last? key).map f := by
  rw [last?, ← List.map_reverse, get?_map_value]
  rfl

theorem last?_eq_none_iff {o : Keyed α} {key : Text} : o.last? key = none ↔ key ∉ o.keys := by
  rw [last?, get?_eq_none_iff, keys, List.map_reverse, List.mem_reverse]
  rfl

/-- Among collected entries the last value under a key is found. -/
theorem get?_collect (before entries : Keyed α) (key : Text) :
    get? key (collect before entries) = (entries.last? key).or (before.get? key) := by
  induction entries generalizing before with
  | nil => rfl
  | cons m entries ih =>
    have hStep : collect before (m :: entries) = collect (before.insert m.1 m.2) entries := rfl
    rw [hStep, ih, last?_cons, Option.or_assoc]
    congr 1
    by_cases hKey : m.1 = key
    · subst hKey
      rw [get?_insert_self, if_pos rfl, Option.some_or]
    · rw [get?_insert_of_ne before m.2 (Ne.symm hKey), if_neg hKey, Option.none_or]

/-- Entries under distinct keys are kept as they are. -/
theorem collect_of_nodup {before entries : Keyed α} (h : (before ++ entries).keys.Nodup) :
    collect before entries = before ++ entries := by
  induction entries generalizing before with
  | nil => exact (List.append_nil before).symm
  | cons m entries ih =>
    have hSplit : before ++ m :: entries = before ++ [m] ++ entries := by
      rw [List.append_assoc, List.singleton_append]
    -- the key is new, so its entry comes last
    have hNew : m.1 ∉ before.keys := by
      rw [keys, List.map_append, List.nodup_append] at h
      exact fun hMem => h.2.2 _ hMem _ List.mem_cons_self rfl
    rw [hSplit] at h ⊢
    rw [← ih h, ← insert_of_not_mem hNew m.2]
    rfl

end Keyed

/-! ## Tokens of a document -/

mutual

/-- The tokens of a document. -/
def Value.tokens : Value → List Token
  | .text t => [.text t]
  | .list items => .openList :: Value.listTokens items
  | .object members => .openObject :: Value.objectTokens members
  | v => [.scalar v]

/-- The tokens of a list after its opening bracket. -/
def Value.listTokens : List Value → List Token
  | [] => [.closeList]
  | v :: items => v.tokens ++ Value.itemTokens items

/-- The tokens of the items after the first one, up to the closing bracket. -/
def Value.itemTokens : List Value → List Token
  | [] => [.closeList]
  | v :: items => .comma :: (v.tokens ++ Value.itemTokens items)

/-- The tokens of an object after its opening bracket. -/
def Value.objectTokens : List (Text × Value) → List Token
  | [] => [.closeObject]
  | (key, v) :: members => .text key :: .colon :: (v.tokens ++ Value.memberTokens members)

/-- The tokens of the members after the first one, up to the closing bracket. -/
def Value.memberTokens : List (Text × Value) → List Token
  | [] => [.closeObject]
  | (key, v) :: members =>
    .comma :: .text key :: .colon :: (v.tokens ++ Value.memberTokens members)

end

/-- The text writes a document: its tokens are those of the document. -/
def Text.Writes (t : Text) (w : Value) : Prop := (Lexeme.scan t).map Lexeme.token = w.tokens

namespace Value

/-- A document begins with a token that can be read and is not the closing bracket of a list. -/
theorem exists_first (v : Value) :
    ∃ token rest, v.tokens = token :: rest ∧ token.IsGood ∧ token ≠ .closeList := by
  cases v <;> exact ⟨_, _, rfl, trivial, nofun⟩

mutual

/-- Two documents that begin alike are the same. -/
theorem tokens_append_inj : ∀ (v w : Value) {r s : List Token},
    v.tokens ++ r = w.tokens ++ s → v = w ∧ r = s
  -- the first token tells what kind of document both are
  | .list items, w, r, s, h => by
    cases w with
    | list others =>
      simp only [tokens, List.cons_append, List.cons.injEq, true_and] at h
      obtain ⟨rfl, rfl⟩ := listTokens_append_inj items others h
      exact ⟨rfl, rfl⟩
    | _ => simp [tokens] at h
  | .object members, w, r, s, h => by
    cases w with
    | object others =>
      simp only [tokens, List.cons_append, List.cons.injEq, true_and] at h
      obtain ⟨rfl, rfl⟩ := objectTokens_append_inj members others h
      exact ⟨rfl, rfl⟩
    | _ => simp [tokens] at h
  | .null, w, r, s, h | .bool _, w, r, s, h | .int _, w, r, s, h | .float _, w, r, s, h
  | .text _, w, r, s, h => by cases w <;> simp_all [tokens]

theorem listTokens_append_inj : ∀ (items others : List Value) {r s : List Token},
    listTokens items ++ r = listTokens others ++ s → items = others ∧ r = s
  | [], others, r, s, h => by
    match others with
    | [] => simpa [listTokens] using h
    | w :: _ =>
      -- the one list ends where the other has its first item
      obtain ⟨p, rest, hTokens, -, hClose⟩ := exists_first w
      simp only [listTokens, hTokens, List.cons_append, List.cons.injEq] at h
      exact absurd h.1.symm hClose
  | v :: items, others, r, s, h => by
    match others with
    | [] =>
      obtain ⟨p, rest, hTokens, -, hClose⟩ := exists_first v
      simp only [listTokens, hTokens, List.cons_append, List.cons.injEq] at h
      exact absurd h.1 hClose
    | w :: others =>
      simp only [listTokens, List.append_assoc] at h
      obtain ⟨rfl, hItems⟩ := tokens_append_inj v w h
      obtain ⟨rfl, rfl⟩ := itemTokens_append_inj items others hItems
      exact ⟨rfl, rfl⟩

theorem itemTokens_append_inj : ∀ (items others : List Value) {r s : List Token},
    itemTokens items ++ r = itemTokens others ++ s → items = others ∧ r = s
  | [], others, r, s, h => by
    match others with
    | [] => simpa [itemTokens] using h
    | _ :: _ => simp [itemTokens] at h
  | v :: items, others, r, s, h => by
    match others with
    | [] => simp [itemTokens] at h
    | w :: others =>
      simp only [itemTokens, List.cons_append, List.append_assoc, List.cons.injEq, true_and] at h
      obtain ⟨rfl, hItems⟩ := tokens_append_inj v w h
      obtain ⟨rfl, rfl⟩ := itemTokens_append_inj items others hItems
      exact ⟨rfl, rfl⟩

theorem objectTokens_append_inj : ∀ (members others : List (Text × Value)) {r s : List Token},
    objectTokens members ++ r = objectTokens others ++ s → members = others ∧ r = s
  | [], others, r, s, h => by
    match others with
    | [] => simpa [objectTokens] using h
    | (_, _) :: _ => simp [objectTokens] at h
  | (key, v) :: members, others, r, s, h => by
    match others with
    | [] => simp [objectTokens] at h
    | (name, w) :: others =>
      simp only [objectTokens, List.cons_append, List.append_assoc, List.cons.injEq,
        Token.text.injEq, true_and] at h
      obtain ⟨rfl, hValue⟩ := h
      obtain ⟨rfl, hMembers⟩ := tokens_append_inj v w hValue
      obtain ⟨rfl, rfl⟩ := memberTokens_append_inj members others hMembers
      exact ⟨rfl, rfl⟩

theorem memberTokens_append_inj : ∀ (members others : List (Text × Value)) {r s : List Token},
    memberTokens members ++ r = memberTokens others ++ s → members = others ∧ r = s
  | [], others, r, s, h => by
    match others with
    | [] => simpa [memberTokens] using h
    | (_, _) :: _ => simp [memberTokens] at h
  | (key, v) :: members, others, r, s, h => by
    match others with
    | [] => simp [memberTokens] at h
    | (name, w) :: others =>
      simp only [memberTokens, List.cons_append, List.append_assoc, List.cons.injEq,
        Token.text.injEq, true_and] at h
      obtain ⟨rfl, hValue⟩ := h
      obtain ⟨rfl, hMembers⟩ := tokens_append_inj v w hValue
      obtain ⟨rfl, rfl⟩ := memberTokens_append_inj members others hMembers
      exact ⟨rfl, rfl⟩

end

/-- The tokens spell one document. -/
theorem tokens_injective {v w : Value} (h : v.tokens = w.tokens) : v = w := by
  refine (tokens_append_inj v w (r := []) (s := []) ?_).1
  rw [h]

end Value

/-! ## Merged documents -/

mutual

/-- A document with the members of one name put together: of each the last value counts. -/
def Value.merged : Value → Value
  | .list items => .list (Value.mergedItems items)
  | .object members => .object (Keyed.collect [] (Value.mergedMembers members))
  | v => v

def Value.mergedItems : List Value → List Value
  | [] => []
  | v :: items => v.merged :: Value.mergedItems items

def Value.mergedMembers : List (Text × Value) → List (Text × Value)
  | [] => []
  | (key, v) :: members => (key, v.merged) :: Value.mergedMembers members

end

namespace Value

theorem mergedMembers_eq_map (members : List (Text × Value)) :
    mergedMembers members = members.map fun (key, v) => (key, v.merged) := by
  induction members with
  | nil => rfl
  | cons m members ih => rw [mergedMembers, ih, List.map_cons]

/-- In a merged object the last value of a name is found, merged itself. -/
theorem get?_merged (members : Object) (key : Text) :
    Keyed.get? key (Keyed.collect [] (mergedMembers members)) =
      (members.last? key).map Value.merged := by
  rw [Keyed.get?_collect, mergedMembers_eq_map, Keyed.last?_map_value, Keyed.get?, Option.or_none]

theorem mergedItems_eq_map (items : List Value) : mergedItems items = items.map merged := by
  induction items with
  | nil => rfl
  | cons v items ih => rw [mergedItems, ih, List.map_cons]

/-- In what was read once there is nothing to be put together. -/
theorem merged_of_readable {P : Text → Prop} {depth : Nat} {v : Value} (h : v.Readable P depth) :
    v.merged = v := by
  induction h with
  | list _ ih =>
    rw [merged, mergedItems_eq_map, List.map_congr_left ih, List.map_id']
  | @object _ members hKeys _ _ ih =>
    have hMember : ∀ m ∈ members, (m.1, m.2.merged) = id m := fun m hm => Prod.ext rfl (ih m hm)
    have hSame : mergedMembers members = members := by
      rw [mergedMembers_eq_map]
      exact (List.map_congr_left hMember).trans (List.map_id members)
    have hDistinct : ([] ++ members : Object).keys.Nodup := hKeys
    rw [merged, hSame, Keyed.collect_of_nodup hDistinct, List.nil_append]
  | _ => rfl

end Value

/-! ## Waiting states -/

namespace Reader.State

/-- The reader waits for a value within these containers. -/
def Awaits (s : State) (frames : List Frame) : Prop :=
  ∀ l : Lexeme, l.token ≠ .closeList → s.step l = takeValue frames l

theorem awaits_value (frames : List Frame) : (value frames).Awaits frames := fun _ _ => rfl

theorem awaits_firstItem (frames : List Frame) :
    (firstItem frames).Awaits (.list [] :: frames) := by
  rintro ⟨token, rest⟩ hToken
  cases token with
  | closeList => exact absurd rfl hToken
  | _ => rfl

end Reader.State

/-! ## What the reader reads -/

namespace Lexeme

/-- The lexemes begin with those of the tokens, and `rest` is left. -/
def Leads (tokens : List Token) (ls rest : List Lexeme) : Prop :=
  ∃ first, ls = first ++ rest ∧ first.map Lexeme.token = tokens

theorem Leads.cons {tokens : List Token} {ls rest : List Lexeme} (h : Leads tokens ls rest)
    {token : Token} {l : Lexeme} (hToken : l.token = token) :
    Leads (token :: tokens) (l :: ls) rest := by
  obtain ⟨first, rfl, rfl⟩ := h
  exact ⟨l :: first, rfl, by rw [List.map_cons, hToken]⟩

theorem Leads.single {token : Token} {l : Lexeme} (hToken : l.token = token) (rest : List Lexeme) :
    Leads [token] (l :: rest) rest := ⟨[l], rfl, congrArg ([·]) hToken⟩

theorem Leads.append {tokens tokens' : List Token} {ls rest rest' : List Lexeme}
    (h : Leads tokens ls rest) (h' : Leads tokens' rest rest') :
    Leads (tokens ++ tokens') ls rest' := by
  obtain ⟨first, rfl, rfl⟩ := h
  obtain ⟨second, rfl, rfl⟩ := h'
  exact ⟨first ++ second, by rw [List.append_assoc], by rw [List.map_append]⟩

theorem Leads.subset {tokens : List Token} {ls rest : List Lexeme} (h : Leads tokens ls rest) :
    rest ⊆ ls := by
  obtain ⟨first, rfl, -⟩ := h
  exact List.subset_append_right _ _

theorem Leads.length_le {tokens : List Token} {ls rest : List Lexeme} (h : Leads tokens ls rest) :
    rest.length ≤ ls.length := by
  obtain ⟨first, rfl, -⟩ := h
  rw [List.length_append]
  exact Nat.le_add_left _ _

/-- A scalar that is scanned is a document of one token. -/
theorem tokens_of_scanToken {p : CodePoint} {t rest : Text} {v : Value}
    (h : scanToken p t = (.scalar v, rest)) : v.tokens = [.scalar v] ∧ v.merged = v := by
  have hScalar : scanScalar? (p :: t) = some (.scalar v, rest) := by
    unfold scanToken at h
    split at h
    case h_7 => split at h <;> cases h
    case h_8 =>
      split at h
      · next found hFound => rw [hFound, h]
      · cases h
    all_goals cases h
  -- no text is among the scalars, whatever is asked of texts
  have hReadable : v.Readable (fun _ => False) 0 := scanScalar?_readable hScalar
  cases hReadable with
  | text hFalse => exact hFalse.elim
  | _ => exact ⟨rfl, rfl⟩

theorem tokens_of_mem_scan {t : Text} {l : Lexeme} (hl : l ∈ scan t) {v : Value}
    (hToken : l.token = .scalar v) : v.tokens = [.scalar v] ∧ v.merged = v := by
  fun_induction scan t with
  | case1 => cases hl
  | case2 p rest hGap ih => exact ih hl
  | case3 p rest hGap found ih =>
    rcases List.mem_cons.mp hl with rfl | hRest
    · have hFound : scanToken p rest = (.scalar v, found.2) := by rw [← hToken]
      exact tokens_of_scanToken hFound
    · exact ih hRest

end Lexeme

namespace Reader.State

/-- The scalars among the lexemes are documents of one token. -/
def Plain (ls : List Lexeme) : Prop :=
  ∀ l ∈ ls, ∀ v, l.token = .scalar v → v.tokens = [.scalar v] ∧ v.merged = v

variable {u : Value} {n : Nat} {frames : List Frame} {l : Lexeme} {ls : List Lexeme}

/-- A reader that is not at its end takes a step, and there is one lexeme less to read. -/
theorem exists_step_of_run {s : State} (hRun : s.run ls = .ok u) (hLength : ls.length ≤ n + 1)
    (hPlain : Plain ls) (hOpen : s ≠ .after u []) :
    ∃ token text rest s', ls = ⟨token, text⟩ :: rest ∧ s.step ⟨token, text⟩ = .ok s' ∧
      s'.run rest = .ok u ∧ rest.length ≤ n ∧ Plain rest := by
  cases ls with
  | nil => exact absurd (run_nil_eq_ok_iff.mp hRun) hOpen
  | cons l rest =>
    obtain ⟨s', hStep, hTail⟩ := run_cons_eq_ok_iff.mp hRun
    exact ⟨l.token, l.rest, rest, s', rfl, hStep, hTail, Nat.le_of_succ_le_succ hLength,
      fun l hl => hPlain l (List.mem_cons_of_mem _ hl)⟩

/-- What at most so many lexemes are, when they are read to the end `u`: where a value is awaited,
a document; after an item or a member, the rest of the container. -/
structure Spells (u : Value) (n : Nat) : Prop where
  value : ∀ {ls : List Lexeme} {frames : List Frame}, ls.length ≤ n → Plain ls →
    (State.value frames).run ls = .ok u →
      ∃ (w : Value) (rest : List Lexeme), Lexeme.Leads w.tokens ls rest ∧
        (after w.merged frames).run rest = .ok u
  items : ∀ {ls : List Lexeme} {frames : List Frame} {v : Value} {before : List Value},
    ls.length ≤ n → Plain ls → (after v (.list before :: frames)).run ls = .ok u →
      ∃ (items : List Value) (rest : List Lexeme), Lexeme.Leads (Value.itemTokens items) ls rest ∧
        (after (.list ((v :: before).reverse ++ Value.mergedItems items)) frames).run rest = .ok u
  members : ∀ {ls : List Lexeme} {frames : List Frame} {v : Value} {before : Object} {key : Text},
    ls.length ≤ n → Plain ls → (after v (.object before key :: frames)).run ls = .ok u →
      ∃ (members : Object) (rest : List Lexeme),
        Lexeme.Leads (Value.memberTokens members) ls rest ∧
          (after (.object (Keyed.collect (before.insert key v) (Value.mergedMembers members)))
            frames).run rest = .ok u

/-- After the opening bracket of a list come its items, if there are any. -/
theorem Spells.list (h : Spells u n) (hLength : ls.length ≤ n) (hPlain : Plain ls)
    (hRun : (firstItem frames).run ls = .ok u) :
    ∃ (items : List Value) (rest : List Lexeme), Lexeme.Leads (Value.listTokens items) ls rest ∧
      (after (.list (Value.mergedItems items)) frames).run rest = .ok u := by
  match ls with
  | [] => cases run_nil_eq_ok_iff.mp hRun
  | ⟨token, text⟩ :: rest =>
    by_cases hClose : token = .closeList
    · subst hClose
      obtain ⟨s, hStep, hRest⟩ := run_cons_eq_ok_iff.mp hRun
      obtain rfl := Except.ok.inj hStep
      exact ⟨[], rest, .single rfl rest, hRest⟩
    · -- the first item is awaited like any other
      have hValue : (State.value (.list [] :: frames)).run (⟨token, text⟩ :: rest) = .ok u := by
        rw [run] at hRun ⊢
        rwa [awaits_firstItem frames _ hClose] at hRun
      obtain ⟨w, after, hFirst, hAfter⟩ := h.value hLength hPlain hValue
      obtain ⟨items, rest', hItems, hRest⟩ := h.items (hFirst.length_le.trans hLength)
        (fun l hl => hPlain l (hFirst.subset hl)) hAfter
      exact ⟨w :: items, rest', hFirst.append hItems, hRest⟩

/-- After the name of a member come its value and the members that follow. -/
theorem Spells.member (h : Spells u n) (hLength : ls.length ≤ n) (hPlain : Plain ls)
    {before : Object} {key : Text} (hRun : (colon before key frames).run ls = .ok u) :
    ∃ (w : Value) (members : Object) (rest : List Lexeme),
      Lexeme.Leads (.colon :: (w.tokens ++ Value.memberTokens members)) ls rest ∧
        (after (.object (Keyed.collect (before.insert key w.merged)
          (Value.mergedMembers members))) frames).run rest = .ok u := by
  obtain ⟨token, text, ls, s, rfl, hStep, hTail, hTailLength, hTailPlain⟩ :=
    exists_step_of_run hRun (Nat.le_succ_of_le hLength) hPlain nofun
  match token with
  | .colon =>
    obtain rfl := Except.ok.inj hStep
    obtain ⟨w, after, hFirst, hAfter⟩ := h.value hTailLength hTailPlain hTail
    obtain ⟨members, rest, hMembers, hRest⟩ := h.members (hFirst.length_le.trans hTailLength)
      (fun l hl => hTailPlain l (hFirst.subset hl)) hAfter
    exact ⟨w, members, rest, (hFirst.append hMembers).cons rfl, hRest⟩
  | .openList | .closeList | .openObject | .closeObject | .comma | .text _ | .scalar _
  | .badText _ | .badScalar _ => cases hStep

/-- After the opening bracket of an object come its members, if there are any. -/
theorem Spells.object (h : Spells u n) (hLength : ls.length ≤ n) (hPlain : Plain ls)
    (hRun : (firstName frames).run ls = .ok u) :
    ∃ (members : Object) (rest : List Lexeme), Lexeme.Leads (Value.objectTokens members) ls rest ∧
      (after (.object (Keyed.collect [] (Value.mergedMembers members))) frames).run rest =
        .ok u := by
  obtain ⟨token, text, ls, s, rfl, hStep, hTail, hTailLength, hTailPlain⟩ :=
    exists_step_of_run hRun (Nat.le_succ_of_le hLength) hPlain nofun
  match token with
  | .closeObject =>
    obtain rfl := Except.ok.inj hStep
    exact ⟨[], ls, .single rfl ls, hTail⟩
  | .text key =>
    obtain rfl := Except.ok.inj hStep
    obtain ⟨w, members, rest, hMember, hRest⟩ := h.member hTailLength hTailPlain hTail
    exact ⟨(key, w) :: members, rest, hMember.cons rfl, hRest⟩
  | .openList | .closeList | .openObject | .colon | .comma | .scalar _ | .badText _
  | .badScalar _ => cases hStep

/-- With one lexeme more: where a value is awaited, a document. -/
theorem Spells.value_succ (h : Spells u n) (hLength : ls.length ≤ n + 1) (hPlain : Plain ls)
    (hRun : (State.value frames).run ls = .ok u) :
    ∃ (w : Value) (rest : List Lexeme), Lexeme.Leads w.tokens ls rest ∧
      (after w.merged frames).run rest = .ok u := by
  obtain ⟨token, text, ls, s, rfl, hStep, hTail, hTailLength, hTailPlain⟩ :=
    exists_step_of_run hRun hLength hPlain nofun
  change takeValue frames ⟨token, text⟩ = .ok s at hStep
  unfold takeValue at hStep
  split at hStep
  case h_1 v hToken =>
    -- a scalar is a document of one token, as every scalar that is scanned
    obtain rfl := Except.ok.inj hStep
    obtain ⟨hTokens, hMerged⟩ := hPlain _ List.mem_cons_self v hToken
    refine ⟨v, ls, ?_, ?_⟩
    · rw [hTokens]
      exact .single hToken ls
    · rwa [hMerged]
  case h_2 t hToken =>
    obtain rfl := Except.ok.inj hStep
    exact ⟨.text t, ls, .single hToken ls, hTail⟩
  case h_3 hToken =>
    split at hStep
    · cases hStep
    · obtain rfl := Except.ok.inj hStep
      obtain ⟨items, rest, hItems, hRest⟩ := h.list hTailLength hTailPlain hTail
      exact ⟨.list items, rest, hItems.cons hToken, hRest⟩
  case h_4 hToken =>
    split at hStep
    · cases hStep
    · obtain rfl := Except.ok.inj hStep
      obtain ⟨members, rest, hMembers, hRest⟩ := h.object hTailLength hTailPlain hTail
      exact ⟨.object members, rest, hMembers.cons hToken, hRest⟩
  all_goals cases hStep

/-- With one lexeme more: after an item, the closing bracket or a comma and the next item. -/
theorem Spells.items_succ (h : Spells u n) (hLength : ls.length ≤ n + 1) (hPlain : Plain ls)
    {v : Value} {before : List Value} (hRun : (after v (.list before :: frames)).run ls = .ok u) :
    ∃ (items : List Value) (rest : List Lexeme), Lexeme.Leads (Value.itemTokens items) ls rest ∧
      (after (.list ((v :: before).reverse ++ Value.mergedItems items)) frames).run rest =
        .ok u := by
  obtain ⟨token, text, ls, s, rfl, hStep, hTail, hTailLength, hTailPlain⟩ :=
    exists_step_of_run hRun hLength hPlain nofun
  match token with
  | .closeList =>
    obtain rfl := Except.ok.inj hStep
    refine ⟨[], ls, .single rfl ls, ?_⟩
    rwa [Value.mergedItems, List.append_nil]
  | .comma =>
    obtain rfl := Except.ok.inj hStep
    obtain ⟨w, after, hFirst, hAfter⟩ := h.value hTailLength hTailPlain hTail
    obtain ⟨items, rest, hItems, hRest⟩ := h.items (hFirst.length_le.trans hTailLength)
      (fun l hl => hTailPlain l (hFirst.subset hl)) hAfter
    refine ⟨w :: items, rest, (hFirst.append hItems).cons rfl, ?_⟩
    -- the item that was read last is the last one before those that follow
    rw [List.reverse_cons, List.append_assoc, List.singleton_append] at hRest
    exact hRest
  | .openList | .openObject | .closeObject | .colon | .text _ | .scalar _ | .badText _
  | .badScalar _ => cases hStep

/-- With one lexeme more: after a member, the closing bracket or a comma and the next member. -/
theorem Spells.members_succ (h : Spells u n) (hLength : ls.length ≤ n + 1) (hPlain : Plain ls)
    {v : Value} {before : Object} {key : Text}
    (hRun : (after v (.object before key :: frames)).run ls = .ok u) :
    ∃ (members : Object) (rest : List Lexeme),
      Lexeme.Leads (Value.memberTokens members) ls rest ∧
        (after (.object (Keyed.collect (before.insert key v) (Value.mergedMembers members)))
          frames).run rest = .ok u := by
  obtain ⟨token, text, ls, s, rfl, hStep, hTail, hTailLength, hTailPlain⟩ :=
    exists_step_of_run hRun hLength hPlain nofun
  match token with
  | .closeObject =>
    obtain rfl := Except.ok.inj hStep
    exact ⟨[], ls, .single rfl ls, hTail⟩
  | .comma =>
    obtain rfl := Except.ok.inj hStep
    -- after a comma there must be a name
    obtain ⟨token, text, ls, s, rfl, hStep, hName, hNameLength, hNamePlain⟩ :=
      exists_step_of_run hTail (Nat.le_succ_of_le hTailLength) hTailPlain nofun
    match token with
    | .text key =>
      obtain rfl := Except.ok.inj hStep
      obtain ⟨w, members, rest, hMember, hRest⟩ := h.member hNameLength hNamePlain hName
      exact ⟨(key, w) :: members, rest, (hMember.cons rfl).cons rfl, hRest⟩
    | .openList | .closeList | .openObject | .closeObject | .colon | .comma | .scalar _
    | .badText _ | .badScalar _ => cases hStep
  | .openList | .closeList | .openObject | .colon | .text _ | .scalar _ | .badText _
  | .badScalar _ => cases hStep

/-- However many lexemes there are. -/
theorem spells (u : Value) (n : Nat) : Spells u n := by
  -- induction on the number of lexemes, as each step of the reader takes one
  induction n with
  | succ n ih =>
    exact ⟨ih.value_succ, fun hLength hPlain => ih.items_succ hLength hPlain,
      fun hLength hPlain => ih.members_succ hLength hPlain⟩
  | zero =>
    have hNil : ∀ {s : State} {ls : List Lexeme}, ls.length ≤ 0 → s.run ls = .ok u →
        s = .after u [] := by
      intro s ls hLength hRun
      obtain rfl := List.length_eq_zero_iff.mp (Nat.le_zero.mp hLength)
      exact run_nil_eq_ok_iff.mp hRun
    constructor
    · intro ls frames hLength _ hRun
      cases hNil hLength hRun
    · intro ls frames v before hLength _ hRun
      cases hNil hLength hRun
    · intro ls frames v before key hLength _ hRun
      cases hNil hLength hRun

end Reader.State

namespace Text

/-- Every text that is read writes a document, and is read as the document merged. -/
theorem exists_writes_of_read {t : Text} {v : Value} (h : Value.read t = .ok v) :
    ∃ w, t.Writes w ∧ v = w.merged := by
  unfold Value.read at h
  split at h
  · cases h
  · have hPlain : Reader.State.Plain (Lexeme.scan t) := fun l hl v hToken =>
      Lexeme.tokens_of_mem_scan hl hToken
    obtain ⟨w, rest, ⟨first, hScan, hFirst⟩, hRun⟩ :=
      (Reader.State.spells v (Lexeme.scan t).length).value (Nat.le_refl _) hPlain h
    -- nothing follows the document
    have hBegun : (Reader.State.after w.merged []).Begun := trivial
    obtain rfl := Reader.State.eq_nil_of_run hBegun rfl hRun
    rw [List.append_nil] at hScan
    refine ⟨w, ?_, Reader.State.eq_of_run_after hRun⟩
    rw [Writes, hScan, hFirst]

end Text

end OscMonitor
