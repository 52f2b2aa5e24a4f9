import RecordText.Descriptor.Basic
import RecordText.Json.NumberText
import RecordText.Json.Path
import RecordText.Text.Dump

/-!
# Descriptor documents

A document holds one descriptor or an array of them. A descriptor is an object
with the keys `typeName` and `fields`, a field an object with the keys `name`
and `declaredType`; unknown keys are passed over, and `fields` and
`declaredType` may be missing. Below the outermost level a descriptor or field
may also be an array of its parts in that order.

A document that cannot be read is answered by the path of the first node at
fault and by what is wrong with it.
-/

namespace RecordText.Document

open Json (Path PathStep)

/-- What is expected at a node. -/
inductive Expected where
  | text
  | sequence
  | descriptor
  | field
  deriving DecidableEq, Repr

/-- The words for what is expected. -/
def Expected.words : Expected → String
  | text => "a string"
  | sequence => "a sequence"
  | descriptor => "struct TypeDescriptor"
  | field => "struct FieldDescriptor"

/-- What is wrong with a node. -/
inductive Problem where
  | wrongType (found : Json) (expected : Expected)
  | missingKey (name : String)
  | tooShort (expected : Expected)
  | tooLong (length : Nat)
  deriving Repr

/-- The words for a value that was found. -/
def foundWords : Json → String
  | .null => "null"
  | .bool value => "boolean `" ++ (if value then "true" else "false") ++ "`"
  | .number (.int n) => "integer `" ++ String.ofList (Decimal.intChars n) ++ "`"
  | .number (.float x) => "floating point `" ++ Decimal.Format.positional.writeFloat x ++ "`"
  | .string text => "string " ++ Text.dump text
  | .array _ => "sequence"
  | .object _ => "map"

/-- The sentence for a problem. -/
def Problem.message : Problem → String
  | wrongType found expected =>
    "invalid type: " ++ foundWords found ++ ", expected " ++ expected.words
  | missingKey name => "missing field `" ++ name ++ "`"
  | tooShort expected =>
    "invalid length 0, expected " ++ expected.words ++ " with 2 elements"
  | tooLong length =>
    "invalid length " ++ toString length ++ ", expected fewer elements in array"

/-- A problem together with the path of the node that has it. -/
structure Failure where
  path : Path
  problem : Problem
  deriving Repr

/-- The text that reports a failure. -/
def Failure.message (failure : Failure) : String :=
  "at JSON path " ++ failure.path.text ++ " → " ++ failure.problem.message

/-- Move a result one step below a node. -/
def below {α : Type} (step : PathStep) (result : Except Failure α) : Except Failure α :=
  result.mapError fun failure => { failure with path := step :: failure.path }

/-- A failure at the node itself. -/
def fail {α : Type} (problem : Problem) : Except Failure α :=
  .error { path := [], problem }

/-- Read a string. -/
def readText : Json → Except Failure String
  | .string text => .ok text
  | other => fail (.wrongType other .text)

/-- Read the items of an array from a given index on. -/
def readItems {α : Type} (read : Json → Except Failure α) (index : Nat) :
    List Json → Except Failure (List α)
  | [] => .ok []
  | item :: rest => do
    let first ← below (.index index) (read item)
    let others ← readItems read (index + 1) rest
    return first :: others

/-- Read an array of things of one kind. -/
def readSequence {α : Type} (read : Json → Except Failure α) : Json → Except Failure (List α)
  | .array items => readItems read 0 items
  | other => fail (.wrongType other .sequence)

/-- Read a record of two parts, the second of which has a default.

An object is read key by key in document order, so that the first bad value is reported; a missing
first part is noticed after all keys. An array is read by position. -/
def readRecord {α β : Type} (expected : Expected) (firstKey secondKey : String)
    (readFirst : Json → Except Failure α) (readSecond : Json → Except Failure β) (default : β) :
    Json → Except Failure (α × β)
  | .object members =>
    let rec visit (first : Option α) (second : Option β) :
        List (String × Json) → Except Failure (α × β)
      | [] =>
        match first with
        | none => fail (.missingKey firstKey)
        | some a => .ok (a, second.getD default)
      | (key, value) :: rest =>
        if key = firstKey then do
          let a ← below (.key key) (readFirst value)
          visit (some a) second rest
        else if key = secondKey then do
          let b ← below (.key key) (readSecond value)
          visit first (some b) rest
        else visit first second rest
    visit none none members
  | .array [] => fail (.tooShort expected)
  | .array [first] => do
    let a ← below (.index 0) (readFirst first)
    return (a, default)
  | .array (first :: second :: more) => do
    let a ← below (.index 0) (readFirst first)
    let b ← below (.index 1) (readSecond second)
    if more.isEmpty then return (a, b)
    else fail (.tooLong (more.length + 2))
  | other => fail (.wrongType other expected)

/-- Read a field. -/
def readField (value : Json) : Except Failure Field := do
  let (name, declaredType) ← readRecord .field "name" "declaredType" readText readText "" value
  return { name, declaredType }

/-- Read a descriptor. -/
def readDescriptor (value : Json) : Except Failure Descriptor := do
  let (typeName, fields) ←
    readRecord .descriptor "typeName" "fields" readText (readSequence readField) [] value
  return { typeName, fields }

/-- Read a document: the descriptors of an array, or the one descriptor that it is. -/
def read : Json → Except Failure (List Descriptor)
  | .array items => readItems readDescriptor 0 items
  | other => (readDescriptor other).map fun descriptor => [descriptor]

/-- The object form of a field. -/
def fieldJson (field : Field) : Json :=
  .object [("name", .string field.name), ("declaredType", .string field.declaredType)]

/-- The object form of a descriptor. -/
def descriptorJson (descriptor : Descriptor) : Json :=
  .object [("typeName", .string descriptor.typeName),
    ("fields", .array (descriptor.fields.map fieldJson))]

end RecordText.Document
