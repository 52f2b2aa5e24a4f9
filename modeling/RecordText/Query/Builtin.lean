import RecordText.Json.Parser
import RecordText.Query.Access

/-!
# Built-in functions on values

The built-in filters that take the input, and possibly the values of their
arguments, to at most one value. The table lists them by name and number of
arguments.
-/

namespace RecordText.Query.Builtin

open RecordText.Query.Value (wrongKind)

/-- The length of a value: characters, items, members, or the magnitude of a number. -/
def length (v : Value) : Except Value Value :=
  match v with
  | .null => .ok (.int 0)
  | .int n => .ok (Value.ofIntOr n.natAbs (Float.ofInt n).abs)
  | .float x => .ok (.float x.abs)
  | .decimal text => .ok (.float (Value.floatOfText text).abs)
  | .string s => .ok (.int s.length)
  | .array items => .ok (.int items.length)
  | .object members => .ok (.int members.length)
  | .bool _ => .error (.string (v.text ++ " has no length"))

/-- The keys of an object in their order, or the positions of an array. -/
def keysUnsorted (v : Value) : Except Value Value :=
  match v with
  | .array items => .ok (.array ((List.range items.length).map fun (i : Nat) => .int i))
  | .object members => .ok (.array (members.map fun member => .string member.1))
  | _ => wrongKind v "iterable (array or object)"

/-- Whether a value has a key or position. -/
def has (v key : Value) : Except Value Value :=
  match v, key with
  | .array items, .int i =>
    if 0 ≤ i then .ok (.bool (i < items.length)) else Value.noIndex v key
  | .object members, .string name => .ok (.bool (getKey? members name).isSome)
  | _, _ => Value.noIndex v key

/-- Read a string. -/
def text (v : Value) : Except Value String :=
  match v with
  | .string s => .ok s
  | _ => wrongKind v "string"

/-- Read the items of an array. -/
def items (v : Value) : Except Value (List Value) :=
  match v with
  | .array items => .ok items
  | _ => wrongKind v "array"

/-- The value of a JSON text. -/
def fromJson (v : Value) : Except Value Value := do
  let s ← text v
  match Json.parse? s with
  | some json => .ok (Value.ofJson json)
  | none => .error (.string ("cannot parse " ++ v.text ++ " as JSON"))

/-- The number that a value is or that its text stands for. -/
def toNumber (v : Value) : Except Value Value :=
  match v with
  | .int _ => .ok v
  | .float _ => .ok v
  | .decimal _ => .ok v
  | .string _ =>
    match fromJson v with
    | .ok (.int n) => .ok (.int n)
    | .ok (.decimal t) => .ok (.decimal t)
    | _ => wrongKind v "number"
  | _ => wrongKind v "number"

/-- Whether a text starts with another. -/
def startsWith (v start : Value) : Except Value Value := do
  let s ← text v
  let t ← text start
  return .bool (t.toList.isPrefixOf s.toList)

/-- Whether a text ends with another. -/
def endsWith (v ending : Value) : Except Value Value := do
  let s ← text v
  let t ← text ending
  return .bool (t.toList.isSuffixOf s.toList)

/-- A text without a given start. -/
def trimStartText (v start : Value) : Except Value Value := do
  let s ← text v
  let t ← text start
  return .string (if t.toList.isPrefixOf s.toList then
    String.ofList (s.toList.drop t.length) else s)

/-- A text without a given end. -/
def trimEndText (v ending : Value) : Except Value Value := do
  let s ← text v
  let t ← text ending
  return .string (if t.toList.isSuffixOf s.toList then
    String.ofList (s.toList.take (s.length - t.length)) else s)

/-- Apply a function to every character of a text. -/
def mapChars (f : Char → Char) (v : Value) : Except Value Value := do
  let s ← text v
  return .string (String.ofList (s.toList.map f))

/-- The code points of a text. -/
def explode (v : Value) : Except Value Value := do
  let s ← text v
  return .array (s.toList.map fun c => .int c.toNat)

/-- The character with a given code point. -/
def codePoint (v : Value) : Except Value Char :=
  match v with
  | .int n =>
    if 0 ≤ n ∧ n.toNat.isValidChar then .ok (Char.ofNat n.toNat)
    else .error (.string ("cannot use " ++ v.text ++ " as character"))
  | _ => wrongKind v "integer"

/-- The text of code points. -/
def implode (v : Value) : Except Value Value := do
  let codes ← items v
  let chars ← codes.mapM codePoint
  return .string (String.ofList chars)

/-- The pieces of a text between separators. -/
def split (v separator : Value) : Except Value Value := do
  let s ← text v
  let t ← text separator
  return .array ((Value.split s t).map .string)

/-- A function without arguments. -/
def noArgs? (name : String) : Option (Value → Except Value Value) :=
  match name with
  | "null" => some fun _ => .ok .null
  | "true" => some fun _ => .ok (.bool true)
  | "false" => some fun _ => .ok (.bool false)
  | "error" => some .error
  | "length" => some length
  | "keys_unsorted" => some keysUnsorted
  | "type" => some fun v => .ok (.string v.kindName)
  | "tostring" => some fun v => .ok (.string v.plainText)
  | "tojson" => some fun v => .ok (.string v.text)
  | "fromjson" => some fromJson
  | "tonumber" => some toNumber
  | "ascii_downcase" => some (mapChars Char.toLower)
  | "ascii_upcase" => some (mapChars Char.toUpper)
  | "explode" => some explode
  | "implode" => some implode
  | "@text" => some fun v => .ok (.string v.plainText)
  | "@json" => some fun v => .ok (.string v.text)
  | _ => none

/-- A function with one argument. -/
def oneArg? (name : String) : Option (Value → Value → Except Value Value) :=
  match name with
  | "has" => some has
  | "split" => some split
  | "startswith" => some startsWith
  | "endswith" => some endsWith
  | "ltrimstr" => some trimStartText
  | "rtrimstr" => some trimEndText
  | _ => none

/-- Items with the keys by which they are put in order. -/
abbrev Keyed := List (List Value × Value)

/-- Compare keys. -/
def keyOrder (a b : List Value × Value) : Ordering :=
  Value.order (.array a.1) (.array b.1)

/-- Sort items by their keys; equal ones keep their order. -/
def sortKeyed (keyed : Keyed) : Keyed :=
  keyed.mergeSort fun a b => keyOrder a b != .gt

/-- Put neighbours with equal keys into groups. -/
def groupSorted : Keyed → List Keyed
  | [] => []
  | first :: rest =>
    match groupSorted rest with
    | (next :: group) :: groups =>
      if keyOrder first next == .eq then (first :: next :: group) :: groups
      else [first] :: (next :: group) :: groups
    | groups => [first] :: groups

/-- The first of the least items. -/
def leastKeyed? : Keyed → Option (List Value × Value)
  | [] => none
  | first :: rest => some (rest.foldl (fun best item =>
      if keyOrder item best == .lt then item else best) first)

/-- The last of the greatest items. -/
def greatestKeyed? : Keyed → Option (List Value × Value)
  | [] => none
  | first :: rest => some (rest.foldl (fun best item =>
      if keyOrder item best == .lt then best else item) first)

/-- A function on the items of an array with their keys. -/
def byKey? (name : String) : Option (Keyed → Value) :=
  match name with
  | "sort_by" => some fun keyed => .array ((sortKeyed keyed).map (·.2))
  | "group_by" =>
    some fun keyed => .array ((groupSorted (sortKeyed keyed)).map fun g => .array (g.map (·.2)))
  | "min_by" => some fun keyed => ((leastKeyed? keyed).map (·.2)).getD .null
  | "max_by" => some fun keyed => ((greatestKeyed? keyed).map (·.2)).getD .null
  | _ => none

/-- Whether there is a built-in filter with this name and number of arguments. -/
def isKnown (name : String) (arity : Nat) : Bool :=
  match arity with
  | 0 => name == "empty" || (noArgs? name).isSome
  | 1 => (oneArg? name).isSome || (byKey? name).isSome || name == "first" || name == "last"
  | 2 => name == "limit"
  | 3 => name == "range"
  | _ => false

end RecordText.Query.Builtin
