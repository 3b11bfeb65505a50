import OscMonitor.Document.Reader
import OscMonitor.Failure
import OscMonitor.Text.Utf8

/-!
# The document of a reply

A reply is text or bytes, possibly followed by the terminator of a C string and line ends. Reading
it is strict: what is not UTF-8, not JSON or not an object is refused, and nothing else is.

* `Reply.document` is the object of a reply.
* `ReplyFault.failure` is how a refusal is reported.
-/

namespace OscMonitor

/-- What the daemon answered. -/
inductive Reply where
  | bytes (b : Bytes)
  | text (t : Text)
  deriving Repr

/-- Why a reply is refused. -/
inductive ReplyFault where
  -- The bytes, `length` of them, are not UTF-8.
  | notUtf8 (fault : Utf8.Fault) (length : Nat)
  -- The text is not JSON.
  | notJson (fault : ReadFault) (text : Text)
  -- The value is no object.
  | notObject (v : Value)
  deriving Repr

namespace Reply

/-- The numbers of the code points, or bytes, that may follow a reply: NUL and four blanks. -/
def isTerminator (n : Nat) : Bool := n == 0 || n == 0x20 || n == 9 || n == 10 || n == 13

/-- A text without what may follow a reply. -/
def trimText (t : Text) : Text := Text.trimEnd (fun p => isTerminator p.number) t

/-- Bytes without what may follow a reply. -/
def trimBytes (b : Bytes) : Bytes := (b.reverse.dropWhile fun x => isTerminator x.toNat).reverse

def content : Reply → Except ReplyFault Text
  | .text t => .ok (trimText t)
  | .bytes b =>
    match Utf8.decode (trimBytes b) with
    | .ok t => .ok t
    | .error fault => .error (.notUtf8 fault (trimBytes b).length)

/-- The object that a text stands for. -/
def objectOf (t : Text) : Except ReplyFault Object :=
  match Value.read t with
  | .ok (.object members) => .ok members
  | .ok v => .error (.notObject v)
  | .error fault => .error (.notJson fault t)

/-- The object of a reply. -/
def document (r : Reply) : Except ReplyFault Object := do objectOf (← r.content)

end Reply

/-- How a refusal of a reply is reported. -/
def ReplyFault.failure : ReplyFault → Failure
  | notUtf8 fault length =>
    .ofStage .decoding ("Reply is not valid UTF-8: " ++ fault.message) [("bytes", .int length)]
  | notJson fault t =>
    let bytes : Text × Value := ("bytes", .int t.length)
    match fault.position? t with
    | some position =>
      .ofStage .decoding ("Reply is not well-formed JSON: " ++ fault.message t)
        [bytes, ("position", .int position)]
    | none => .ofStage .decoding ("Reply is not decodable JSON: " ++ fault.message t) [bytes]
  | notObject v =>
    .ofStage .decoding
      ("Reply is a JSON " ++ Text.ofString v.sortName ++ ", expected an object") []

end OscMonitor
