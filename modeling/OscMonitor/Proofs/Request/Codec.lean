import OscMonitor.Proofs.Document.Paired
import OscMonitor.Proofs.Document.Strict
import OscMonitor.Proofs.Report.Integers
import OscMonitor.Proofs.Report.Raw
import OscMonitor.Request.Codec

/-!
# The codec of requests

A value that can be encoded stands for one action, and its request is the bytes of this action. They
are read as the action again, and as an object by anyone who reads documents. Reading a request
takes the same values for an action as encoding does: whatever the value is, and however the object
with this one member is written.

A request is read by the reader of strict documents, and what the daemon makes of it is told by the
other reader. Neither is defined by the other; that they agree is `Strict.read_of_read?`. What is
shared is the rule by which a value without parts stands for a code: a value that is encoded and one
that comes in a text follow the same rule, and only how the value is come by differs.

Main results:

* `Action.encode`, `Action.decode` — requests from values, and actions from text or bytes.
* `Action.Asks` — the texts of an object with the one member that requests have.
* `Action.ofText_eq_ok_iff` — such a text is read as the action that the value stands for.
* `Action.codec_sound` — what is encoded is right, and what is decoded can be encoded.
-/

namespace OscMonitor

open Lexeme Reader

/-! ## Texts that stand for integers -/

namespace Accept

theorem isUnicode_of_integerText {t : Text} {n : Int} (h : integerText t = .ok n) :
    isUnicode t = true := by
  obtain ⟨digits, hSpells, -⟩ := integerText_eq_ok_iff.mp h
  exact hSpells.isUnicode

/-- Halves of surrogate pairs stand for no integer, nor does what they make when put together. -/
theorem integerText_paired {t : Text} {n : Int} :
    integerText t.paired = .ok n ↔ integerText t = .ok n := by
  constructor
  · intro h
    obtain ⟨digits, hSpells, -⟩ := integerText_eq_ok_iff.mp h
    -- a numeral has no character beyond the first plane, so nothing has been put together
    have hSame : t.paired = t := Text.paired_of_number_lt fun p hp =>
      (hSpells.number_lt p hp).trans (by decide)
    rwa [hSame] at h
  · intro h
    have hScalar := List.all_eq_true.mp (isUnicode_of_integerText h)
    rwa [Text.paired_of_isScalar hScalar]

end Accept

/-! ## What is printed -/

/-- What is printed of a value that holds no others is one token, and writes the value with its
halves put together; but an integer with too many digits is a token that cannot be read. -/
theorem Value.exists_scans_print {v : Value} (hLeaf : v.IsLeaf) (s : Separators) :
    ∃ token, (∀ rest, Stops rest → Scans (v.print s) token rest) ∧
      (v.paired.tokens = [token] ∨
        ∃ n, v = .int n ∧ Numeral.digitLimit < decimalLength n.natAbs ∧
          token = .badScalar (.tooManyDigits (decimalLength n.natAbs))) := by
  match v with
  | .null => exact ⟨_, fun _ _ => ⟨_, _, rfl, rfl, rfl⟩, .inl rfl⟩
  | .bool true => exact ⟨_, fun _ _ => ⟨_, _, rfl, rfl, rfl⟩, .inl rfl⟩
  | .bool false => exact ⟨_, fun _ _ => ⟨_, _, rfl, rfl, rfl⟩, .inl rfl⟩
  | .float x => exact ⟨_, fun _ hRest => scans_printDouble x hRest, .inl rfl⟩
  | .text t =>
    refine ⟨_, fun rest _ => ?_, .inl rfl⟩
    have hScans := scans_printText t.joined_paired rest
    rwa [printText_paired] at hScans
  | .int n =>
    -- the number of digits decides
    refine ⟨_, fun _ hRest => scans_ofInt n hRest, ?_⟩
    split
    · exact .inl rfl
    · next hLong => exact .inr ⟨n, rfl, Nat.lt_of_not_le hLong, rfl⟩

/-- The tokens of a printed object with one member that is one token. -/
theorem tokens_print_member {s : Separators} (hPlain : s.IsPlain) {key : Text} (hKey : key.Joined)
    {v : Value} {token : Token} (h : ∀ rest, Stops rest → Scans (v.print s) token rest) :
    (scan ((Value.object [(key, v)]).print s)).map Lexeme.token =
      [.openObject, .text key, .colon, token, .closeObject] := by
  obtain ⟨gaps, hColon, hGaps⟩ := hPlain.key
  have hPrint : (Value.object [(key, v)]).print s = [.scalar '{'] ++ (printText key ++
      ([.scalar ':'] ++ (gaps ++ (v.print s ++ ([.scalar '}'] ++ []))))) := by
    have hObject := Value.print_object_append s [(key, v)] []
    rw [List.append_nil] at hObject
    rw [hObject, Value.printMembers, Text.append_string, hColon]
    simp
  -- token by token; the gaps after the colon are skipped
  have hStops : Stops ([.scalar '}'] ++ []) := stops_close (.inr rfl) []
  rw [hPrint, (scans_openObject _).scan, (scans_printText hKey _).scan, (scans_colon _).scan,
    scan_gaps hGaps, (h _ hStops).scan, (scans_closeObject _).scan, scan]
  rfl

/-! ## Values that stand for actions -/

namespace Action

variable {a : Action} {v : Value}

theorem code_le (a : Action) : a.code ≤ 12 := by cases a <;> decide

theorem ofInteger_eq_ok_iff {n : Int} : ofInteger n = .ok a ↔ n = a.code := by
  constructor
  · intro h
    unfold ofInteger at h
    split at h
    · split at h
      · next b hCode =>
        obtain rfl := Except.ok.inj h
        exact (code_eq_of_ofCode? hCode).symm
      · cases h
    · cases h
  · rintro rfl
    cases a <;> rfl

/-- The code of an action stands for it. -/
theorem ofValue_code (a : Action) : ofValue (.int a.code) = .ok a := ofInteger_eq_ok_iff.mpr rfl

theorem ofValue_text_eq_ok_iff {t : Text} :
    ofValue (.text t) = .ok a ↔ Accept.integerText t = .ok a.code := by
  unfold ofValue Accept.integer
  dsimp only
  rcases Accept.integerText t with reason | n
  · simp
  · rw [Except.ok.injEq, ← ofInteger_eq_ok_iff]

/-- A value that stands for an action holds no other values, and its text has no halves. -/
theorem leaf_of_ofValue (h : ofValue v = .ok a) :
    v.IsLeaf ∧ ∀ t, v = .text t → t.all (·.isScalar) = true := by
  match v with
  | .list _ | .object _ => cases h
  | .null | .bool _ | .int _ | .float _ => exact ⟨trivial, nofun⟩
  | .text t =>
    refine ⟨trivial, ?_⟩
    rintro _ ⟨rfl⟩
    exact Accept.isUnicode_of_integerText (ofValue_text_eq_ok_iff.mp h)

theorem ofValue_paired (v : Value) : ofValue v.paired = .ok a ↔ ofValue v = .ok a := by
  match v with
  | .text t =>
    rw [Value.paired, ofValue_text_eq_ok_iff, ofValue_text_eq_ok_iff, Accept.integerText_paired]
  | .null | .bool _ | .int _ | .float _ | .list _ | .object _ => rfl

/-! ## Objects with one member -/

theorem ofMembers_eq_ok_iff {members : Object} (h : members.last? member = some v) :
    ofMembers members = .ok a ↔ ofValue v = .ok a ∧ ∀ name ∈ members.keys, name = member := by
  have hUnknown : (members.keys.filter (· ≠ member)).map
      (fun name => RequestFault.mk [name] .unknownMember) = [] ↔
        ∀ name ∈ members.keys, name = member := by
    simp
  rw [← hUnknown]
  unfold ofMembers
  rw [h]
  dsimp only
  generalize (members.keys.filter (· ≠ member)).map _ = faults
  generalize ofValue v = action
  match action, faults with
  | .ok b, [] => simp
  | .ok b, fault :: faults => simp
  | .error cause, faults => simp

/-- A request is the text of an object within the limits. -/
theorem writes_of_ofText {t : Text} (h : ofText t = .ok a) :
    ∃ members, t.Writes (.object members) ∧ (Value.object members).IsStrict Strict.depthLimit ∧
      ofMembers members = .ok a := by
  unfold ofText at h
  split at h
  · next members hStrict =>
    obtain ⟨hWrites, hWithin⟩ := Strict.read?_eq_some_iff.mp hStrict
    exact ⟨members, hWrites, hWithin, h⟩
  · cases h
  · cases h

/-- An object that is written with the one member is read as the action that its value stands
for. -/
theorem ofText_eq_ok_iff_of_writes {t : Text} (hWrites : t.Writes (.object [(member, v)])) :
    ofText t = .ok a ↔ ofValue v = .ok a := by
  have hLast : Keyed.last? [(member, v)] member = some v := by simp [Keyed.last?, Keyed.get?]
  constructor
  · intro h
    obtain ⟨members, hWrites', -, hMembers⟩ := writes_of_ofText h
    -- a text writes one document
    obtain rfl : members = [(member, v)] :=
      Value.object.inj (Value.tokens_injective (hWrites'.symm.trans hWrites))
    exact ((ofMembers_eq_ok_iff hLast).mp hMembers).1
  · intro h
    obtain ⟨hLeaf, hUnicode⟩ := leaf_of_ofValue h
    have hStrict : (Value.object [(member, v)]).IsStrict Strict.depthLimit :=
      .object (List.forall_mem_singleton.mpr (show Strict.isUnicode member = true by decide))
        (List.forall_mem_singleton.mpr (Value.isStrict_of_isLeaf hLeaf hUnicode _))
    rw [ofText, Strict.read?_eq_some_iff.mpr ⟨hWrites, hStrict⟩]
    exact (ofMembers_eq_ok_iff hLast).mpr ⟨h, List.forall_mem_singleton.mpr rfl⟩

theorem decimalLength_le_of_ofValue {n : Int} (h : ofValue (.int n) = .ok a) :
    decimalLength n.natAbs ≤ Numeral.digitLimit := by
  obtain rfl := ofInteger_eq_ok_iff.mp h
  have hCode : a.code < 10 ^ 2 := (code_le a).trans_lt (by decide)
  have hLength : decimalLength a.code ≤ 2 := (decimalLength_le_iff (by decide)).mpr hCode
  exact hLength.trans (by decide)

/-- An integer with too many digits is not read, and it stands for no action. -/
theorem ofText_eq_ok_iff_of_tooLong {t : Text} {n : Int}
    (hLong : Numeral.digitLimit < decimalLength n.natAbs)
    (hScan : (scan t).map Lexeme.token = [.openObject, .text member, .colon,
      .badScalar (.tooManyDigits (decimalLength n.natAbs)), .closeObject]) :
    ofText t = .ok a ↔ ofValue (.int n) = .ok a := by
  constructor
  · intro h
    obtain ⟨members, hWrites, hWithin, -⟩ := writes_of_ofText h
    have hTokens := hWithin.tokens
    rw [← hWrites, hScan] at hTokens
    simp only [List.forall_mem_cons] at hTokens
    obtain ⟨-, -, -, hBad, -⟩ := hTokens
    exact hBad.elim
  · intro h
    exact absurd (decimalLength_le_of_ofValue h) (Nat.not_le_of_lt hLong)

/-- An object that is printed with the one member is read as the action that its value stands
for. -/
theorem ofText_eq_ok_iff_of_print {s : Separators} (hPlain : s.IsPlain) (hLeaf : v.IsLeaf) :
    ofText ((Value.object [(member, v)]).print s) = .ok a ↔ ofValue v = .ok a := by
  obtain ⟨token, hScans, hTokens⟩ := Value.exists_scans_print hLeaf s
  have hScan := tokens_print_member hPlain (show member.Joined by decide) hScans
  rcases hTokens with hTokens | ⟨n, rfl, hLong, rfl⟩
  · -- halves of a pair come back as a character, and neither stands for an action
    have hWrites : Text.Writes ((Value.object [(member, v)]).print s)
        (.object [(member, v.paired)]) := by
      rw [Text.Writes, hScan, Value.tokens, Value.objectTokens, hTokens]
      rfl
    rw [ofText_eq_ok_iff_of_writes hWrites, ofValue_paired]
  · exact ofText_eq_ok_iff_of_tooLong hLong hScan

/-! ## Requests -/

/-- The characters of a request. -/
def wire (a : Action) : List Char :=
  "\x7b\"request\":".toList ++ Nat.toDigits 10 a.code ++ "\x7d".toList

/-- The bytes of the request that a value stands for. -/
def encode (v : Value) : Except RequestCause Bytes := (ofValue v).map toBytes

/-- The action of a request, which comes as a text or as bytes. -/
def decode : Reply → Except (List RequestFault) Action
  | .text t => ofText t
  | .bytes b => ofBytes b

/-- Data with a given text, as it is or as UTF-8. -/
inductive HasText : Reply → Text → Prop where
  | text (t : Text) : HasText (.text t) t
  | bytes {b : Bytes} {t : Text} (h : Utf8.decode b = .ok t) : HasText (.bytes b) t

/-- A text of the object with the one member that requests have: one that writes it, or what is
printed of it. An integer may have more digits than are read. -/
inductive Asks : Text → Value → Prop where
  | written {t : Text} {v : Value} (h : t.Writes (.object [(member, v)])) : Asks t v
  | tooLong {t : Text} {n : Int} (hLong : Numeral.digitLimit < decimalLength n.natAbs)
    (hScan : (scan t).map Lexeme.token = [.openObject, .text member, .colon,
      .badScalar (.tooManyDigits (decimalLength n.natAbs)), .closeObject]) : Asks t (.int n)
  | printed {s : Separators} {v : Value} (hPlain : s.IsPlain) (hLeaf : v.IsLeaf) :
    Asks ((Value.object [(member, v)]).print s) v

/-- The bytes are the request for an action: exactly its characters with its code, which are read as
this action and as an object with this code. -/
structure IsRequest (bytes : Bytes) (a : Action) : Prop where
  spelled : bytes = Utf8.encode a.wire
  code_le : a.code ≤ 12
  decoded : decode (.bytes bytes) = .ok a
  document : (Reply.bytes bytes).document = .ok [(member, .int a.code)]

theorem ofText_eq_ok_iff {t : Text} (h : Asks t v) : ofText t = .ok a ↔ ofValue v = .ok a := by
  cases h with
  | written hWrites => exact ofText_eq_ok_iff_of_writes hWrites
  | tooLong hLong hScan => exact ofText_eq_ok_iff_of_tooLong hLong hScan
  | printed hPlain hLeaf => exact ofText_eq_ok_iff_of_print hPlain hLeaf

theorem decode_eq_ofText {data : Reply} {t : Text} (h : HasText data t) :
    decode data = ofText t := by
  cases h with
  | text => rfl
  | bytes hDecode => rw [decode, ofBytes, hDecode]

theorem toText_eq_wire (a : Action) : a.toText = a.wire.map .scalar := by cases a <;> rfl

theorem toBytes_eq_encode_wire (a : Action) : a.toBytes = Utf8.encode a.wire := by
  cases a <;> rfl

/-- The bytes of an action are its request. -/
theorem isRequest_toBytes (a : Action) : IsRequest a.toBytes a where
  spelled := toBytes_eq_encode_wire a
  code_le := code_le a
  decoded := by
    have hText : HasText (.bytes a.toBytes) a.toText := by
      rw [toBytes_eq_encode_wire, toText_eq_wire]
      exact .bytes (Utf8.decode_encode _)
    have hLeaf : (Value.int a.code).IsLeaf := trivial
    rw [decode_eq_ofText hText]
    exact (ofText_eq_ok_iff_of_print Separators.isPlain_compact hLeaf).mpr (ofValue_code a)
  document := by
    -- a printed object is read back, and the request is what is printed
    have hReadable : (Value.object a.toObject).Readable Text.Joined depthLimit := by
      refine Value.readable_object_iff.mpr ⟨999, rfl, by simp [toObject, Keyed.keys], ?_, ?_⟩
      · exact List.forall_mem_singleton.mpr (show member.Joined by decide)
      · exact List.forall_mem_singleton.mpr (.int (decimalLength_le_of_ofValue (ofValue_code a)))
    obtain ⟨cs, hPrint, -, hBytes⟩ := Reply.document_print Separators.isPlain_compact hReadable
    have hWire : a.wire = cs := by
      refine List.map_injective_iff.mpr (fun c d => CodePoint.scalar.inj) ?_
      rw [← toText_eq_wire, ← hPrint]
      rfl
    rw [toBytes_eq_encode_wire, hWire]
    exact hBytes

/-- A value is encoded as the bytes of an action exactly when it stands for the action. -/
theorem encode_eq_ok_iff : encode v = .ok a.toBytes ↔ ofValue v = .ok a := by
  unfold encode
  cases ofValue v with
  | error cause => simp [Except.map]
  | ok b =>
    rw [Except.map, Except.ok.injEq, Except.ok.injEq]
    refine ⟨fun h => ?_, fun h => by rw [h]⟩
    -- the bytes are decoded as one action
    have hDecoded := (isRequest_toBytes b).decoded
    rw [h, (isRequest_toBytes a).decoded] at hDecoded
    exact (Except.ok.inj hDecoded).symm

/-- **The codec of requests is sound.** The bytes of an action are its request. A value is refused,
or it is encoded as the request for an action. Data are refused, or they are decoded as an action
whose bytes are decoded as this action again. Data with the text of an object with the one member
that requests have are decoded as an action exactly when the value of this member is encoded as its
bytes. -/
theorem codec_sound :
    (∀ a, IsRequest a.toBytes a) ∧
    (∀ v, (∃ cause, encode v = .error cause) ∨
      ∃ bytes a, encode v = .ok bytes ∧ IsRequest bytes a) ∧
    (∀ data, (∃ faults, decode data = .error faults) ∨
      ∃ a, decode data = .ok a ∧ decode (.bytes a.toBytes) = .ok a) ∧
    ∀ data t v, HasText data t → Asks t v →
      ∀ a, decode data = .ok a ↔ encode v = .ok a.toBytes := by
  refine ⟨isRequest_toBytes, fun v => ?_, fun data => ?_, fun data t v hText hAsks a => ?_⟩
  · match hValue : ofValue v with
    | .error cause => exact .inl ⟨cause, by rw [encode, hValue, Except.map]⟩
    | .ok a => exact .inr ⟨_, a, encode_eq_ok_iff.mpr hValue, isRequest_toBytes a⟩
  · match hDecode : decode data with
    | .error faults => exact .inl ⟨faults, rfl⟩
    | .ok a => exact .inr ⟨a, rfl, (isRequest_toBytes a).decoded⟩
  · rw [decode_eq_ofText hText, ofText_eq_ok_iff hAsks, encode_eq_ok_iff]

/-- A code as a text with a sign and underscores, in an object with gaps. -/
theorem codec_sound_of_text :
    let v := Value.text "+0_7"
    let cs := " \x7b \"request\" : \"+0_7\" \x7d".toList
    let data := Reply.bytes (Utf8.encode cs)
    HasText data (cs.map .scalar) ∧ Asks (cs.map .scalar) v ∧
      encode v = .ok readEeprom.toBytes ∧ decode data = .ok .readEeprom := by
  intro v cs data
  have hText : HasText data (cs.map .scalar) := .bytes (Utf8.decode_encode cs)
  have hWrites : Text.Writes (cs.map .scalar) (.object [(member, v)]) := by
    subst cs v
    cbv
  have hEncode : encode v = .ok readEeprom.toBytes := encode_eq_ok_iff.mpr (by decide)
  obtain ⟨-, -, -, hAgree⟩ := codec_sound
  exact ⟨hText, .written hWrites, hEncode,
    (hAgree data _ v hText (.written hWrites) _).mpr hEncode⟩

end Action

end OscMonitor
