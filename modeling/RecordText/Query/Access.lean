import RecordText.Query.Arithmetic
import RecordText.Query.Outputs

/-!
# Access to parts of values

A part of a value is selected by a key or index, by a range, or as each of its
items. A part can be read, and it can be replaced by the first output of a
filter; a part for which the filter has no output is removed. Access that the
value does not admit is an error, or nothing happens if the access is optional.
-/

namespace RecordText.Query

namespace Value

/-- A range of an array or string: two ends, each of which may be absent. -/
structure Span where
  from? : Option Value
  upto? : Option Value

/-- The error of a key or index that a value does not admit. -/
def noIndex {α : Type} (value index : Value) : Except Value α :=
  .error (.string ("cannot index " ++ value.text ++ " with " ++ index.text))

/-- The position that an index means; negative ones count from the back. -/
def position? (index : Int) (length : Nat) : Option Nat :=
  let i := if index < 0 then index + length else index
  if 0 ≤ i && i < length then some i.toNat else none

/-- The position that an end of a range means, within the bounds. -/
def bound (index : Int) (length : Nat) : Nat :=
  if index < 0 then (index + length).toNat else min index.toNat length

/-- Read an integer. -/
def int? : Value → Except Value Int
  | int n => .ok n
  | other => wrongKind other "integer"

/-- The part under a key or index. -/
def index (value key : Value) : Except Value Value :=
  match value, key with
  | array items, int i => .ok (((position? i items.length).bind fun p => items[p]?).getD .null)
  | object members, string name => .ok ((getKey? members name).getD .null)
  | _, _ => noIndex value key

/-- All parts. -/
def parts (value : Value) : Except Value (List Value) :=
  match value with
  | array items => .ok items
  | object members => .ok (members.map (·.2))
  | _ => wrongKind value "iterable (array or object)"

/-- The position of an end of a range, with a default for an absent one. -/
def endPosition (end? : Option Value) (length default : Nat) : Except Value Nat :=
  match end? with
  | none => .ok default
  | some .null => .ok default
  | some v => v.int?.map fun i => bound i length

/-- The first position and the number of positions of a range. -/
def Span.bounds (range : Span) (length : Nat) : Except Value (Nat × Nat) := do
  let start ← endPosition range.from? length 0
  let stop ← endPosition range.upto? length length
  return (start, stop - start)

/-- The part in a range. -/
def slice (value : Value) (range : Span) : Except Value Value :=
  match value with
  | array items => do
    let (start, count) ← range.bounds items.length
    return .array ((items.drop start).take count)
  | string s => do
    let (start, count) ← range.bounds s.length
    return .string (String.ofList ((s.toList.drop start).take count))
  | _ => wrongKind value "rangeable (array or string)"

/-- The outcome of an access: an optional access that fails leaves the value as it is. -/
def orKeep (optional : Bool) (value : Value) (result : Except Value Value) : Outcome :=
  match result with
  | .ok v => .ok v
  | .error e => if optional then .ok value else .error (.error e)

/-- Replace the items of an array, each by all outputs of a filter. -/
def mapItems (f : Value → Outputs) : List Value → Except Stop (List Value)
  | [] => .ok []
  | item :: rest => do
    let new ← (f item).collect
    let others ← mapItems f rest
    return new ++ others

/-- Replace the values of members, each by the first output of a filter. -/
def mapMembers (f : Value → Outputs) :
    List (String × Value) → Except Stop (List (String × Value))
  | [] => .ok []
  | (key, value) :: rest =>
    match (f value).first? with
    | none => mapMembers f rest
    | some (.error reason) => .error reason
    | some (.ok new) => do
      let others ← mapMembers f rest
      return (key, new) :: others

/-- Replace all parts. -/
def mapParts (value : Value) (optional : Bool) (f : Value → Outputs) : Outcome :=
  match value with
  | array items => (mapItems f items).map .array
  | object members => (mapMembers f members).map .object
  | _ => orKeep optional value (wrongKind value "iterable (array or object)")

/-- Remove a key; the last member takes its place. -/
def removeKey (members : List (String × Value)) (key : String) : List (String × Value) :=
  match members.findIdx? fun member => member.1 = key, members.getLast? with
  | some i, some last => members.dropLast.set i last
  | _, _ => members

/-- Replace the part under a key or index. -/
def mapIndex (value key : Value) (optional : Bool) (f : Value → Outputs) : Outcome :=
  match value, key with
  | object members, string name =>
    match (f ((getKey? members name).getD .null)).first? with
    | none => .ok (.object (removeKey members name))
    | some (.error reason) => .error reason
    | some (.ok new) => .ok (.object (setKey members name new))
  | object _, _ => orKeep optional value (noIndex value key)
  | array items, int i =>
    match position? i items.length with
    | none =>
      orKeep optional value (.error (.string ("index " ++ key.text ++ " out of bounds")))
    | some p =>
      match (f (items[p]?.getD .null)).first? with
      | none => .ok (.array (items.eraseIdx p))
      | some (.error reason) => .error reason
      | some (.ok new) => .ok (.array (items.set p new))
  | array _, _ => orKeep optional value (wrongKind key "integer")
  | _, _ => orKeep optional value (wrongKind value "iterable (array or object)")

/-- Replace the part of an array in a range by the array that a filter makes of it. -/
def mapSlice (value : Value) (range : Span) (optional : Bool) (f : Value → Outputs) : Outcome :=
  match value with
  | array items =>
    match range.bounds items.length with
    | .error e => orKeep optional value (.error e)
    | .ok (start, count) =>
      match (f (.array ((items.drop start).take count))).first? with
      | none => .ok (.array (items.take start ++ items.drop (start + count)))
      | some (.error reason) => .error reason
      | some (.ok (.array new)) =>
        .ok (.array (items.take start ++ new ++ items.drop (start + count)))
      | some (.ok other) => (wrongKind other "array").mapError .error
  | _ => orKeep optional value (wrongKind value "array")

end Value

end RecordText.Query
