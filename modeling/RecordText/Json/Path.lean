import RecordText.Json.Basic

/-!
# Paths in JSON values

A path leads from the root of a value to one of its nodes by object keys and
array indices. It is written with a point between a key and what stands before
it and with indices in brackets; the root is a single point.
-/

namespace RecordText.Json

/-- One step of a path. -/
inductive PathStep where
  | key (name : String)
  | index (position : Nat)
  deriving DecidableEq, Repr

/-- A path from the root to a node. -/
abbrev Path := List PathStep

/-- The node one step below a value. -/
def child? (value : Json) (step : PathStep) : Option Json :=
  match value, step with
  | object members, .key name => getKey? members name
  | array items, .index position => items[position]?
  | _, _ => none

/-- The node at the end of a path. -/
def node? (value : Json) : Path → Option Json
  | [] => some value
  | step :: rest => (value.child? step).bind fun next => next.node? rest

/-- The text of the steps behind some earlier step. -/
def Path.tailText : Path → String
  | [] => ""
  | .key name :: rest => "." ++ name ++ tailText rest
  | .index position :: rest => "[" ++ toString position ++ "]" ++ tailText rest

/-- The text of a path. -/
def Path.text : Path → String
  | [] => "."
  | .key name :: rest => name ++ Path.tailText rest
  | .index position :: rest => "[" ++ toString position ++ "]" ++ Path.tailText rest

end RecordText.Json
