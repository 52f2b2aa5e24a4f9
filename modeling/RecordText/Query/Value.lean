import RecordText.Json.Printer

/-!
# Query values

A query works on values that extend JSON in their numbers: machine integers,
doubles, and number texts that are kept as they were written until they are
computed with.

Values are totally ordered by kind: null, false, true, numbers, strings, arrays,
objects. Arrays are compared item by item, objects first by their sorted keys
and then by the values in that order.
-/

namespace RecordText.Query

/-- A value that a query works on. -/
inductive Value where
  | null
  | bool (value : Bool)
  | int (value : Int)
  | float (value : Float)
  | decimal (text : String)
  | string (value : String)
  | array (items : List Value)
  | object (members : List (String × Value))
  deriving Repr, Inhabited

namespace Value

/-- The least machine integer. -/
def minInt : Int := -0x8000000000000000

/-- The greatest machine integer. -/
def maxInt : Int := 0x7FFFFFFFFFFFFFFF

/-- Whether an integer fits the machine. -/
def fitsInt (n : Int) : Bool :=
  minInt ≤ n && n ≤ maxInt

/-- The value of a JSON number. -/
def ofNumber (number : Json.Number) : Value :=
  match number with
  | .int n => if fitsInt n then .int n else .decimal (String.ofList number.chars)
  | .float _ => .decimal (String.ofList number.chars)

mutual

/-- The value of a JSON value. -/
def ofJson : Json → Value
  | .null => .null
  | .bool b => .bool b
  | .number n => ofNumber n
  | .string s => .string s
  | .array items => .array (ofItems items)
  | .object members => .object (ofMembers members)

/-- The values of items. -/
def ofItems : List Json → List Value
  | [] => []
  | item :: rest => ofJson item :: ofItems rest

/-- The values of members. -/
def ofMembers : List (String × Json) → List (String × Value)
  | [] => []
  | (key, value) :: rest => (key, ofJson value) :: ofMembers rest

end

/-- Computed doubles are written in place for magnitudes from `10 ^ -4` up to `10 ^ 16`. -/
def floatFormat : Decimal.Format := { lowest := some (-4), highest := some 16 }

/-- The text of a double; one that is not finite has the text of null. -/
def floatChars (x : Float) : List Char :=
  if x.isFinite then (floatFormat.writeFloat x).toList else "null".toList

mutual

/-- The text of a value. -/
def chars : Value → List Char
  | null => "null".toList
  | bool true => "true".toList
  | bool false => "false".toList
  | int n => Decimal.intChars n
  | float x => floatChars x
  | decimal text => text.toList
  | string s => Json.stringChars s
  | array items => '[' :: itemsChars items ++ [']']
  | object members => '\x7b' :: membersChars members ++ ['\x7d']

/-- The texts of items with commas between them. -/
def itemsChars : List Value → List Char
  | [] => []
  | [item] => chars item
  | item :: next :: rest => chars item ++ ',' :: itemsChars (next :: rest)

/-- The texts of members with commas between them. -/
def membersChars : List (String × Value) → List Char
  | [] => []
  | [(key, value)] => Json.stringChars key ++ ':' :: chars value
  | (key, value) :: next :: rest =>
    Json.stringChars key ++ ':' :: chars value ++ ',' :: membersChars (next :: rest)

end

/-- The text of a value as a string. -/
def text (value : Value) : String :=
  String.ofList value.chars

/-- The text of a value, a string standing for itself. -/
def plainText : Value → String
  | string s => s
  | other => other.text

/-- Whether a value counts as true: all do but null and false. -/
def isTrue : Value → Bool
  | null => false
  | bool b => b
  | _ => true

/-- The name of a value's kind. -/
def kindName : Value → String
  | null => "null"
  | bool _ => "boolean"
  | int _ => "number"
  | float _ => "number"
  | decimal _ => "number"
  | string _ => "string"
  | array _ => "array"
  | object _ => "object"

/-- Whether a decimal exponent leads out of the range of doubles for any digits of this count. -/
def decimalFloat (digits : List Nat) (exponent : Int) : Float :=
  let value := Json.digitsValue digits
  let reach := exponent + digits.length
  if value = 0 || reach < -400 then 0.0
  else if 400 < reach then 1.0 / 0.0
  else if 0 ≤ exponent then Float.ofScientific value false exponent.toNat
  else Float.ofScientific value true (-exponent).toNat

/-- The double nearest to a number text. -/
def floatOfText (text : String) : Float :=
  match Json.readNumberParts? text.toList with
  | none => 0.0
  | some (parts, _) =>
    let fraction := parts.fraction.getD []
    let exponent : Int := match parts.exponent with
      | none => 0
      | some (negative, digits) =>
        let n : Int := Json.digitsValue digits
        if negative then -n else n
    let x := decimalFloat (parts.whole ++ fraction) (exponent - fraction.length)
    if parts.negative then -x else x

/-- The double of a number. -/
def float? : Value → Option Float
  | int n => some (Float.ofInt n)
  | float x => some x
  | decimal text => some (floatOfText text)
  | _ => none

/-- Compare doubles; one that is not a number is less than all others. -/
def compareFloat (a b : Float) : Ordering :=
  if a < b then .lt
  else if b < a then .gt
  else if a.isNaN then .lt
  else if b.isNaN then .gt
  else .eq

/-- Compare numbers: integers exactly, others as doubles. -/
def compareNumber (a b : Value) : Ordering :=
  match a, b with
  | int m, int n => compare m n
  | _, _ => compareFloat ((float? a).getD 0.0) ((float? b).getD 0.0)

/-- The place of a value's kind in the order of values. -/
def rank : Value → Nat
  | null => 0
  | bool _ => 1
  | int _ => 2
  | float _ => 2
  | decimal _ => 2
  | string _ => 3
  | array _ => 4
  | object _ => 5

mutual

/-- A value with all objects sorted by their keys. -/
def sorted : Value → Value
  | array items => array (sortedItems items)
  | object members => object ((sortedMembers members).mergeSort fun a b => compare a.1 b.1 != .gt)
  | other => other

/-- Items with all objects sorted. -/
def sortedItems : List Value → List Value
  | [] => []
  | item :: rest => sorted item :: sortedItems rest

/-- Members with all objects in their values sorted. -/
def sortedMembers : List (String × Value) → List (String × Value)
  | [] => []
  | (key, value) :: rest => (key, sorted value) :: sortedMembers rest

end

/-- Compare lists of keys. -/
def compareKeys : List (String × Value) → List (String × Value) → Ordering
  | [], [] => .eq
  | [], _ :: _ => .lt
  | _ :: _, [] => .gt
  | a :: as, b :: bs => (compare a.1 b.1).then (compareKeys as bs)

mutual

/-- Compare values whose objects are sorted. -/
def compareSorted : Value → Value → Ordering
  | bool a, bool b => compare a.toNat b.toNat
  | string a, string b => compare a b
  | array as, array bs => compareItems as bs
  | object as, object bs => (compareKeys as bs).then (compareMembers as bs)
  | a, b => if a.rank = 2 && b.rank = 2 then compareNumber a b else compare a.rank b.rank

/-- Compare items in order. -/
def compareItems : List Value → List Value → Ordering
  | [], [] => .eq
  | [], _ :: _ => .lt
  | _ :: _, [] => .gt
  | a :: as, b :: bs => (compareSorted a b).then (compareItems as bs)

/-- Compare the values of members in order. -/
def compareMembers : List (String × Value) → List (String × Value) → Ordering
  | [], [] => .eq
  | [], _ :: _ => .lt
  | _ :: _, [] => .gt
  | (_, a) :: as, (_, b) :: bs => (compareSorted a b).then (compareMembers as bs)

end

/-- The order of values. -/
def order (a b : Value) : Ordering :=
  compareSorted a.sorted b.sorted

/-- Whether two values are equal; the order of members does not matter. -/
def same (a b : Value) : Bool :=
  order a b == .eq

end Value

end RecordText.Query
