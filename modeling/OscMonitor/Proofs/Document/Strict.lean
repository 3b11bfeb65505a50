import OscMonitor.Document.Strict
import OscMonitor.Proofs.Document.Complete

/-!
# The two readers

Strict documents have a reader of their own, which shares nothing with the other one but the tokens
of a text: it descends where the other keeps a stack, gives all members of an object where the other
puts those of one name together, and looks for halves of surrogate pairs, of which the other knows
nothing. What the two have in common is a fact to be proved. It is proved by way of the documents
that a text writes: each reader is told apart from its steps by what it makes of them.

A text is read strictly exactly when it writes a document within the limits, and then it is read as
this document. Nothing has to be asked of the text outside its quotes, as no half of a pair is part
of another token. The other reader reads it too, and has it merged.

* `Value.IsStrict` — the documents within the limits.
* `Strict.series?_eq_some_iff`, `Strict.value?_eq_some_iff` — what is taken off the front of tokens.
* `Strict.read?_eq_some_iff` — the texts that are read strictly, and as what.
* `Strict.read_of_read?` — the two readers agree.
-/

namespace OscMonitor

/-! ## Halves of surrogate pairs -/

/-- Whether a token can be read and has no halves of surrogate pairs. -/
def Token.IsStrict : Token → Prop
  | .text t => Strict.isUnicode t = true
  | .badText _ | .badScalar _ => False
  | _ => True

theorem Token.IsStrict.isGood {token : Token} (h : token.IsStrict) : token.IsGood := by
  cases token <;> first | exact trivial | exact h

namespace Lexeme

/-- A strict token takes only characters. -/
theorem isScalar_of_scanToken {p : CodePoint} {t rest : Text} {token : Token}
    (h : scanToken p t = (token, rest)) (hStrict : token.IsStrict) :
    ∃ w, t = w ++ rest ∧ ∀ q ∈ p :: w, q.isScalar = true := by
  obtain ⟨w, rfl, hSpelled⟩ := scanToken_spelled h hStrict.isGood
  generalize hWord : p :: w = word at hSpelled
  cases hSpelled with
  | scalar _ hPlain =>
    exact ⟨w, rfl, fun q hq => isScalar_of_isPlain (hPlain q (hWord ▸ hq))⟩
  | @text r _ _ =>
    -- the spelling does not tell what is read, so the scan of the text is looked at again
    obtain rfl := (List.cons.inj hWord).1
    have hText : scanText (.scalar '"' :: (w ++ rest)) [] (w ++ rest) = .ok (r, rest) := by
      rw [scanToken] at h
      split at h
      · next hScan =>
        obtain ⟨hr, rfl⟩ := Prod.mk.inj h
        rw [hScan, Token.text.inj hr]
      · cases h
    obtain ⟨-, w', hw', hScalar⟩ := isScalar_of_scanText hText (List.all_eq_true.mp hStrict)
    exact ⟨w', hw', List.forall_mem_cons.mpr ⟨rfl, hScalar⟩⟩
  | _ =>
    obtain ⟨rfl, rfl⟩ := List.cons.inj hWord
    exact ⟨[], rfl, List.forall_mem_singleton.mpr rfl⟩

/-- Strict tokens come from a text without halves. -/
theorem isScalar_of_scan {t : Text} (h : ∀ token ∈ (scan t).map Lexeme.token, token.IsStrict) :
    ∀ p ∈ t, p.isScalar = true := by
  fun_induction scan t with
  | case1 =>
    intro p hp
    cases hp
  | case2 p rest hGap ih =>
    refine List.forall_mem_cons.mpr ⟨?_, ih h⟩
    exact isScalar_of_isPlain (Nesting.isPlain_of_isGap hGap)
  | case3 p rest hGap found ih =>
    obtain ⟨hStrict, hRest⟩ := List.forall_mem_cons.mp h
    obtain ⟨w, hw, hScalar⟩ := isScalar_of_scanToken (Prod.mk.eta (p := found)).symm hStrict
    rw [hw, ← List.cons_append]
    exact List.forall_mem_append.mpr ⟨hScalar, ih hRest⟩

end Lexeme

/-! ## Strict documents -/

/-- The documents without halves of surrogate pairs in which at most so many containers that hold
something are one in the other. -/
inductive Value.IsStrict : Nat → Value → Prop where
  | scalar {room : Nat} {v : Value} (h : v.tokens = [.scalar v]) : IsStrict room v
  | text {room : Nat} {t : Text} (h : Strict.isUnicode t = true) : IsStrict room (.text t)
  | emptyList {room : Nat} : IsStrict room (.list [])
  | emptyObject {room : Nat} : IsStrict room (.object [])
  | list {room : Nat} {items : List Value} (h : ∀ v ∈ items, IsStrict room v) :
      IsStrict (room + 1) (.list items)
  | object {room : Nat} {members : Object} (hNames : ∀ m ∈ members, Strict.isUnicode m.1 = true)
      (h : ∀ m ∈ members, IsStrict room m.2) : IsStrict (room + 1) (.object members)

namespace Strict

/-! ## Series -/

section Series

variable {α : Type} (spell : α → List Token) (close : Token)

/-- The tokens of the things that follow the first one of a series, up to the token that ends it. -/
def othersTokens : List α → List Token
  | [] => [close]
  | x :: others => .comma :: (spell x ++ othersTokens others)

variable {spell close}

/-- What holds of the tokens of all things in a series, of commas and of the end. -/
theorem forall_mem_series {P : Token → Prop} {x : α} {others : List α} (hClose : P close)
    (hComma : P .comma) (h : ∀ y ∈ x :: others, ∀ token ∈ spell y, P token) :
    ∀ token ∈ spell x ++ othersTokens spell close others, P token := by
  induction others generalizing x with
  | nil =>
    exact List.forall_mem_append.mpr
      ⟨h x List.mem_cons_self, List.forall_mem_singleton.mpr hClose⟩
  | cons y others ih =>
    obtain ⟨hFirst, hOthers⟩ := List.forall_mem_cons.mp h
    exact List.forall_mem_append.mpr ⟨hFirst, List.forall_mem_cons.mpr ⟨hComma, ih hOthers⟩⟩

end Series

/-- The tokens of a member. -/
def spellMember (m : Text × Value) : List Token := .text m.1 :: .colon :: m.2.tokens

theorem itemTokens_eq (items : List Value) :
    Value.itemTokens items = othersTokens Value.tokens .closeList items := by
  induction items with
  | nil => rfl
  | cons v items ih => rw [Value.itemTokens, othersTokens, ih]

theorem memberTokens_eq (members : Object) :
    Value.memberTokens members = othersTokens spellMember .closeObject members := by
  induction members with
  | nil => rfl
  | cons m members ih =>
    rw [Value.memberTokens, ih]
    rfl

theorem tokens_list_cons (v : Value) (others : List Value) :
    (Value.list (v :: others)).tokens =
      .openList :: (v.tokens ++ othersTokens Value.tokens .closeList others) := by
  rw [Value.tokens, Value.listTokens, itemTokens_eq]

theorem tokens_object_cons (m : Text × Value) (others : Object) :
    (Value.object (m :: others)).tokens =
      .openObject :: (spellMember m ++ othersTokens spellMember .closeObject others) := by
  rw [Value.tokens, Value.objectTokens, memberTokens_eq]
  rfl

/-- The scalars among the tokens are documents of one token, as those of a text are. -/
def Plain (tokens : List Token) : Prop := ∀ v, .scalar v ∈ tokens → v.tokens = [.scalar v]

theorem Plain.of_append {tokens rest : List Token} (h : Plain (tokens ++ rest)) : Plain rest :=
  fun v hv => h v (List.mem_append_right _ hv)

theorem Plain.of_cons {token : Token} {rest : List Token} (h : Plain (token :: rest)) :
    Plain rest :=
  fun v hv => h v (List.mem_cons_of_mem _ hv)

/-- Of the tokens before it, `take?` takes the spelling of one thing with the property, and leaves
what follows. -/
def Takes {α : Type} (take? : List Token → Option (α × List Token)) (spell : α → List Token)
    (P : α → Prop) : Prop :=
  ∀ {tokens : List Token}, Plain tokens → ∀ {x : α} {rest : List Token},
    take? tokens = some (x, rest) ↔ P x ∧ tokens = spell x ++ rest

/-- What is taken as a series are the spellings of at least one thing, with commas between them and
the token that ends them. -/
theorem series?_eq_some_iff {α : Type} {isEnd : Token → Bool}
    {take? : List Token → Option (α × List Token)} {spell : α → List Token} {P : α → Prop}
    {close : Token} (hTake : Takes take? spell P)
    (hEnd : ∀ token, isEnd token = true ↔ token = close) (hClose : close ≠ .comma)
    {tokens : List Token} (hPlain : Plain tokens) {xs : List α} {rest : List Token} :
    series? isEnd take? tokens = some (xs, rest) ↔
      ∃ x others, xs = x :: others ∧ (∀ y ∈ xs, P y) ∧
        tokens = spell x ++ (othersTokens spell close others ++ rest) := by
  constructor
  · intro h
    -- induction along the run: each thing that is taken is followed by a comma or by the end
    fun_induction series? isEnd take? tokens generalizing xs with
    | case1 tokens x token left hTaken hIsEnd =>
      obtain ⟨rfl, rfl⟩ := Prod.mk.inj (Option.some.inj h)
      obtain ⟨hx, rfl⟩ := (hTake hPlain).mp hTaken
      obtain rfl := (hEnd token).mp hIsEnd
      exact ⟨x, [], rfl, List.forall_mem_singleton.mpr hx, rfl⟩
    | case2 tokens x left hShorter hTaken hNotEnd ih =>
      obtain ⟨⟨others, left'⟩, hOthers, hEq⟩ := Option.map_eq_some_iff.mp h
      obtain ⟨rfl, rfl⟩ := Prod.mk.inj hEq
      obtain ⟨hx, rfl⟩ := (hTake hPlain).mp hTaken
      obtain ⟨y, others, rfl, hAll, rfl⟩ := ih hPlain.of_append.of_cons hOthers
      refine ⟨x, y :: others, rfl, List.forall_mem_cons.mpr ⟨hx, hAll⟩, ?_⟩
      rw [othersTokens, List.cons_append, List.append_assoc]
    | case3 => cases h
    | case4 => cases h
    | case5 => cases h
  · rintro ⟨x, others, rfl, hAll, rfl⟩
    induction others generalizing x with
    | nil =>
      have hTaken := (hTake hPlain).mpr ⟨hAll x List.mem_cons_self, rfl⟩
      rw [othersTokens, List.singleton_append] at hTaken ⊢
      rw [series?, hTaken]
      exact if_pos ((hEnd close).mpr rfl)
    | cons y others ih =>
      have hTaken := (hTake hPlain).mpr ⟨hAll x List.mem_cons_self, rfl⟩
      rw [othersTokens, List.cons_append, List.append_assoc] at hTaken hPlain ⊢
      have hOthers := ih y (List.forall_mem_cons.mp hAll).2 hPlain.of_append.of_cons
      have hNotEnd : ¬ isEnd .comma = true := fun h => hClose ((hEnd .comma).mp h).symm
      have hShorter : (spell y ++ (othersTokens spell close others ++ rest)).length <
          (spell x ++ .comma :: (spell y ++ (othersTokens spell close others ++ rest))).length := by
        simp only [List.length_append, List.length_cons]
        omega
      rw [series?, hTaken]
      simp only [if_neg hNotEnd, dif_pos hShorter, hOthers, Option.map_some]

/-! ## Values -/

theorem endsList_iff (token : Token) : endsList token = true ↔ token = .closeList := by
  cases token <;> simp [endsList]

theorem endsObject_iff (token : Token) : endsObject token = true ↔ token = .closeObject := by
  cases token <;> simp [endsObject]

/-- A member has a name without halves, and a value of which what holds of those that are taken. -/
theorem takes_member {take? : List Token → Option (Value × List Token)} {P : Value → Prop}
    (hTake : Takes take? Value.tokens P) :
    Takes (member? take?) spellMember fun m => isUnicode m.1 = true ∧ P m.2 := by
  intro tokens hPlain m rest
  constructor
  · intro h
    unfold member? at h
    split at h
    · next key after =>
      split at h
      · next hKey =>
        obtain ⟨⟨v, left⟩, hTaken, hEq⟩ := Option.map_eq_some_iff.mp h
        obtain ⟨rfl, rfl⟩ := Prod.mk.inj hEq
        obtain ⟨hv, rfl⟩ := (hTake hPlain.of_cons.of_cons).mp hTaken
        exact ⟨⟨hKey, hv⟩, rfl⟩
      · cases h
    · cases h
  · rintro ⟨⟨hKey, hv⟩, rfl⟩
    have hTaken := (hTake hPlain.of_cons.of_cons).mpr ⟨hv, rfl⟩
    show (if isUnicode m.1 then _ else none) = _
    rw [if_pos hKey, hTaken]
    rfl

theorem value?_openList {room : Nat} {tokens : List Token}
    (h : tokens.head? ≠ some .closeList) :
    value? (room + 1) (.openList :: tokens) =
      (series? endsList (value? room) tokens).map fun (items, left) => (.list items, left) := by
  match tokens with
  | [] => rfl
  | token :: tokens =>
    cases token with
    | closeList => exact absurd rfl h
    | _ => rfl

/-- A value is taken if it is within the limits, given what is taken within containers. -/
theorem takes_value_of {room : Nat}
    (hWithin : ∀ below, room = below + 1 →
      Takes (value? below) Value.tokens (Value.IsStrict below)) :
    Takes (value? room) Value.tokens (Value.IsStrict room) := by
  intro tokens hPlain v rest
  constructor
  · intro h
    unfold value? at h
    split at h
    · next w left =>
      obtain ⟨rfl, rfl⟩ := Prod.mk.inj (Option.some.inj h)
      have hTokens := hPlain w List.mem_cons_self
      exact ⟨.scalar hTokens, by rw [hTokens]; rfl⟩
    · next t left =>
      split at h
      · next hText =>
        obtain ⟨rfl, rfl⟩ := Prod.mk.inj (Option.some.inj h)
        exact ⟨.text hText, rfl⟩
      · cases h
    · obtain ⟨rfl, rfl⟩ := Prod.mk.inj (Option.some.inj h)
      exact ⟨.emptyList, rfl⟩
    · obtain ⟨rfl, rfl⟩ := Prod.mk.inj (Option.some.inj h)
      exact ⟨.emptyObject, rfl⟩
    · next below left hNotEmpty =>
      obtain ⟨⟨items, left⟩, hItems, hEq⟩ := Option.map_eq_some_iff.mp h
      obtain ⟨rfl, rfl⟩ := Prod.mk.inj hEq
      obtain ⟨w, others, rfl, hAll, rfl⟩ := (series?_eq_some_iff (hWithin below rfl) endsList_iff
        nofun hPlain.of_cons).mp hItems
      exact ⟨.list hAll, by rw [tokens_list_cons, List.cons_append, List.append_assoc]⟩
    · next below left hNotEmpty =>
      obtain ⟨⟨members, left⟩, hMembers, hEq⟩ := Option.map_eq_some_iff.mp h
      obtain ⟨rfl, rfl⟩ := Prod.mk.inj hEq
      obtain ⟨m, others, rfl, hAll, rfl⟩ := (series?_eq_some_iff
        (takes_member (hWithin below rfl)) endsObject_iff nofun hPlain.of_cons).mp hMembers
      exact ⟨.object (fun m hm => (hAll m hm).1) (fun m hm => (hAll m hm).2),
        by rw [tokens_object_cons, List.cons_append, List.append_assoc]⟩
    · cases h
  · rintro ⟨hStrict, rfl⟩
    cases hStrict with
    | scalar h => rw [h, List.singleton_append, value?]
    | @text _ t h => rw [Value.tokens, List.singleton_append, value?, if_pos h]
    | emptyList =>
      show value? room (.openList :: .closeList :: rest) = _
      rw [value?]
    | emptyObject =>
      show value? room (.openObject :: .closeObject :: rest) = _
      rw [value?]
    | @list below items h =>
      match items with
      | [] => rfl
      | w :: others =>
        rw [tokens_list_cons, List.cons_append, List.append_assoc] at hPlain ⊢
        have hItems := (series?_eq_some_iff (hWithin below rfl) endsList_iff nofun
          hPlain.of_cons).mpr ⟨w, others, rfl, h, rfl⟩
        rw [value?_openList, hItems, Option.map_some]
        -- a list that holds something does not end at once
        obtain ⟨token, left, hTokens, -, hNotClose⟩ := w.exists_first
        rw [hTokens]
        exact fun hClose => hNotClose (Option.some.inj hClose)
    | @object below members hNames h =>
      match members with
      | [] => rfl
      | m :: others =>
        rw [tokens_object_cons, List.cons_append, List.append_assoc] at hPlain ⊢
        have hMembers := (series?_eq_some_iff (takes_member (hWithin below rfl)) endsObject_iff
          nofun hPlain.of_cons).mpr ⟨m, others, rfl, fun n hn => ⟨hNames n hn, h n hn⟩, rfl⟩
        rw [spellMember] at hMembers ⊢
        exact congrArg (Option.map _) hMembers

/-- What is taken as a value is one within the limits. -/
theorem value?_eq_some_iff (room : Nat) :
    Takes (value? room) Value.tokens (Value.IsStrict room) := by
  induction room with
  | zero =>
    refine takes_value_of fun below hBelow => ?_
    cases hBelow
  | succ room ih =>
    refine takes_value_of fun below hBelow => ?_
    obtain rfl := Nat.succ.inj hBelow
    exact ih

end Strict

/-! ## Texts -/

/-- A value that holds no others is within the limits, if its text has no halves. -/
theorem Value.isStrict_of_isLeaf {v : Value} (hLeaf : v.IsLeaf)
    (hText : ∀ t, v = .text t → Strict.isUnicode t = true) (room : Nat) : v.IsStrict room := by
  match v with
  | .text t => exact .text (hText t rfl)
  | .null | .bool _ | .int _ | .float _ => exact .scalar rfl

/-- The tokens of a document within the limits can be read and have no halves. -/
theorem Value.IsStrict.tokens {room : Nat} {v : Value} (h : v.IsStrict room) :
    ∀ token ∈ v.tokens, token.IsStrict := by
  induction h with
  | scalar h =>
    rw [h]
    exact List.forall_mem_singleton.mpr trivial
  | text h => exact List.forall_mem_singleton.mpr h
  | emptyList => exact List.forall_mem_cons.mpr ⟨trivial, List.forall_mem_singleton.mpr trivial⟩
  | emptyObject => exact List.forall_mem_cons.mpr ⟨trivial, List.forall_mem_singleton.mpr trivial⟩
  | @list _ items _ ih =>
    match items with
    | [] => exact List.forall_mem_cons.mpr ⟨trivial, List.forall_mem_singleton.mpr trivial⟩
    | v :: others =>
      rw [Strict.tokens_list_cons]
      exact List.forall_mem_cons.mpr ⟨trivial, Strict.forall_mem_series trivial trivial ih⟩
  | @object _ members hNames _ ih =>
    match members with
    | [] => exact List.forall_mem_cons.mpr ⟨trivial, List.forall_mem_singleton.mpr trivial⟩
    | m :: others =>
      have hMember : ∀ n ∈ m :: others, ∀ token ∈ Strict.spellMember n, token.IsStrict :=
        fun n hn => List.forall_mem_cons.mpr
          ⟨hNames n hn, List.forall_mem_cons.mpr ⟨trivial, ih n hn⟩⟩
      rw [Strict.tokens_object_cons]
      exact List.forall_mem_cons.mpr ⟨trivial, Strict.forall_mem_series trivial trivial hMember⟩

namespace Strict

/-- **The texts that are read strictly.** They are those that write a document within the limits, as
which they are read. -/
theorem read?_eq_some_iff {t : Text} {w : Value} :
    read? t = some w ↔ t.Writes w ∧ w.IsStrict depthLimit := by
  have hPlain : Plain ((Lexeme.scan t).map Lexeme.token) := by
    intro v hv
    obtain ⟨l, hl, hToken⟩ := List.mem_map.mp hv
    exact (Lexeme.tokens_of_mem_scan hl hToken).1
  constructor
  · intro h
    unfold read? at h
    split at h
    · split at h
      · next v hValue =>
        obtain rfl := Option.some.inj h
        obtain ⟨hStrict, hTokens⟩ := (value?_eq_some_iff depthLimit hPlain).mp hValue
        exact ⟨hTokens.trans (List.append_nil _), hStrict⟩
      · cases h
    · cases h
  · rintro ⟨hWrites, hStrict⟩
    have hUnicode : isUnicode t = true :=
      List.all_eq_true.mpr (Lexeme.isScalar_of_scan (hWrites ▸ hStrict.tokens))
    have hValue := (value?_eq_some_iff depthLimit hPlain).mpr
      ⟨hStrict, hWrites.trans (List.append_nil _).symm⟩
    rw [read?, if_pos hUnicode, hValue]

/-- Documents within the limits do not reach those of the other reader, even where containers that
hold nothing count. -/
theorem height_le_of_isStrict {room : Nat} {v : Value} (h : v.IsStrict room) :
    v.height 0 ≤ room + 1 := by
  induction h with
  | @scalar room v h =>
    cases v with
    | list | object => cases h
    | _ => exact Nat.zero_le _
  | text => exact Nat.zero_le _
  | emptyList => exact Nat.le_add_left _ _
  | emptyObject => exact Nat.le_add_left _ _
  | list _ ih => exact Nat.succ_le_succ (Value.heightItems_le_iff.mpr ih)
  | object _ _ ih => exact Nat.succ_le_succ (Value.heightMembers_le_iff.mpr ih)

/-- **The two readers agree.** What is read strictly is read by the other reader too, which puts
members of one name together. -/
theorem read_of_read? {t : Text} {w : Value} (h : read? t = some w) :
    Value.read t = .ok w.merged := by
  obtain ⟨hWrites, hStrict⟩ := read?_eq_some_iff.mp h
  exact Value.read_of_writes hWrites ((height_le_of_isStrict hStrict).trans (by decide))

end Strict

end OscMonitor
