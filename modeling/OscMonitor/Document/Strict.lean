import OscMonitor.Document.Token

/-!
# Strict documents

Documents for peers that keep no half of a surrogate pair and open only a limited number of
containers at once. Their reader is not that of other documents: it goes down into every container
and comes back with what it has taken and with the tokens that are left. It gives a document as it
is written, with a member as often as it occurs, and it does not tell why there is none.

* `Strict.value?` takes a value off the front of tokens, `Strict.series?` the rest of a container.
* `Strict.read?` reads a text as a document of this kind.
-/

namespace OscMonitor.Strict

/-- How many containers that are not empty may be open at once. -/
def depthLimit : Nat := 200

/-- Whether a text is free of surrogates. -/
def isUnicode (t : Text) : Bool := t.all (·.isScalar)

/-- Takes things that are separated by commas, up to a token that ends them. There is at least one
of them. -/
def series? {α : Type} (isEnd : Token → Bool) (take? : List Token → Option (α × List Token))
    (tokens : List Token) : Option (List α × List Token) :=
  match take? tokens with
  | some (x, token :: rest) =>
    if isEnd token then some ([x], rest)
    else
      match token with
      | .comma =>
        -- whatever is taken is some token at least
        if _h : rest.length < tokens.length then
          (series? isEnd take? rest).map fun (xs, left) => (x :: xs, left)
        else none
      | _ => none
  | _ => none
termination_by tokens.length

def endsList : Token → Bool
  | .closeList => true
  | _ => false

def endsObject : Token → Bool
  | .closeObject => true
  | _ => false

/-- Takes a member, where `take?` takes its value. -/
def member? (take? : List Token → Option (Value × List Token)) :
    List Token → Option ((Text × Value) × List Token)
  | .text key :: .colon :: rest =>
    if isUnicode key then (take? rest).map fun (v, left) => ((key, v), left) else none
  | _ => none

/-- Takes a value, in which so many containers may be open at once. A container that is closed at
once does not count. -/
def value? : Nat → List Token → Option (Value × List Token)
  | _, .scalar v :: rest => some (v, rest)
  | _, .text t :: rest => if isUnicode t then some (.text t, rest) else none
  | _, .openList :: .closeList :: rest => some (.list [], rest)
  | _, .openObject :: .closeObject :: rest => some (.object [], rest)
  | room + 1, .openList :: rest =>
    (series? endsList (value? room) rest).map fun (items, left) => (.list items, left)
  | room + 1, .openObject :: rest =>
    (series? endsObject (member? (value? room)) rest).map fun (members, left) =>
      (.object members, left)
  | _, _ => none

/-- Reads a text as a document, as it is written. -/
def read? (t : Text) : Option Value :=
  if isUnicode t then
    match value? depthLimit ((Lexeme.scan t).map Lexeme.token) with
    | some (v, []) => some v
    | _ => none
  else none

end OscMonitor.Strict
