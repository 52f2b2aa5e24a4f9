import RecordText.Json.Basic
import RecordText.Text.Digits
import RecordText.Text.Slashes

/-!
# Pointers into JSON values

A pointer names a node by the keys and indices that lead to it from the root,
each behind a slash. The empty pointer names the root. In a key, `~1` stands
for a slash and `~0` for a tilde; any other tilde stands for itself. An index
is written in decimal digits, without a sign and without leading zeros.
-/

namespace RecordText.Json

/-- Undo the escapes of a key. -/
def unescapeKey : List Char → List Char
  | [] => []
  | '~' :: '1' :: rest => '/' :: unescapeKey rest
  | '~' :: '0' :: rest => '~' :: unescapeKey rest
  | c :: rest => c :: unescapeKey rest

/-- The array index that a key is, if it is one. -/
def index? (key : List Char) : Option Nat :=
  if key.head? = some '0' && key.length != 1 then none else Text.decimal? key

/-- The node that a key leads to. -/
def keyed? (value : Json) (key : List Char) : Option Json :=
  match value with
  | object members => getKey? members (String.ofList key)
  | array items => (index? key).bind fun position => items[position]?
  | _ => none

/-- The node that some keys lead to. -/
def descend? (value : Json) : List (List Char) → Option Json
  | [] => some value
  | key :: rest => (value.keyed? key).bind fun next => next.descend? rest

/-- The node that a pointer names. -/
def pointer? (value : Json) (pointer : String) : Option Json :=
  match pointer.toList with
  | [] => some value
  | '/' :: keys => value.descend? ((Text.cutAtSlashes keys).map unescapeKey)
  | _ => none

end RecordText.Json
