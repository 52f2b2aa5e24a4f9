import RecordText.Decimal.Format
import RecordText.Json.Basic

/-!
# Number texts

A number text has an integer part, an optional fraction and an optional
exponent. Without fraction and exponent it is read as an integer if it fits 64
bits; every other text is read as a double.

## Implementation notes

The double is the leading digits that fit an unsigned 64-bit word, multiplied
or divided by one power of ten. A magnitude beyond the largest double is an
error. Minus zero is a double, since an integer has no signed zero.
-/

namespace RecordText.Json

/-- The largest unsigned 64-bit word. -/
def maxWord : Nat := 0xFFFFFFFFFFFFFFFF

/-- A number text taken apart. -/
structure NumberParts where
  negative : Bool
  whole : List Nat
  fraction : Option (List Nat)
  /-- Sign and digits of the exponent. -/
  exponent : Option (Bool × List Nat)
  deriving Repr

/-- The value of a decimal digit. -/
def digitValue (c : Char) : Nat := c.toNat - '0'.toNat

/-- Read the longest run of digits. -/
def readDigits (text : List Char) : List Nat × List Char :=
  ((text.takeWhile Char.isDigit).map digitValue, text.dropWhile Char.isDigit)

/-- Read the integer part: one zero, or digits that do not start with a zero. -/
def readWhole? (text : List Char) : Option (List Nat × List Char) :=
  match readDigits text with
  | ([], _) => none
  | ([0], rest) => some ([0], rest)
  | (0 :: _, _) => none
  | (digits, rest) => some (digits, rest)

/-- Read a fraction if a point follows; the point needs a digit after it. -/
def readFraction? (text : List Char) : Option (Option (List Nat) × List Char) :=
  match text with
  | '.' :: rest =>
    match readDigits rest with
    | ([], _) => none
    | (digits, rest) => some (some digits, rest)
  | _ => some (none, text)

/-- Read the sign of an exponent: whether it is negative. -/
def readSign (text : List Char) : Bool × List Char :=
  match text with
  | '+' :: rest => (false, rest)
  | '-' :: rest => (true, rest)
  | _ => (false, text)

/-- Read an exponent if its letter follows; the letter needs a digit after the optional sign. -/
def readExponent? (text : List Char) : Option (Option (Bool × List Nat) × List Char) :=
  match text with
  | c :: rest =>
    if c = 'e' ∨ c = 'E' then
      let (negative, rest) := readSign rest
      match readDigits rest with
      | ([], _) => none
      | (digits, rest) => some (some (negative, digits), rest)
    else some (none, text)
  | [] => some (none, text)

/-- Take the number text at the front apart. -/
def readNumberParts? (text : List Char) : Option (NumberParts × List Char) := do
  let (negative, unsigned) :=
    match text with
    | '-' :: rest => (true, rest)
    | _ => (false, text)
  let (whole, rest) ← readWhole? unsigned
  let (fraction, rest) ← readFraction? rest
  let (exponent, rest) ← readExponent? rest
  return ({ negative, whole, fraction, exponent }, rest)

/-- Append digits to a word as long as it fits, and return the digits that are left. -/
def appendDigits (word : Nat) : List Nat → Nat × List Nat
  | [] => (word, [])
  | digit :: rest =>
    if word * 10 + digit ≤ maxWord then appendDigits (word * 10 + digit) rest
    else (word, digit :: rest)

/-- The number with these digits. -/
def digitsValue (digits : List Nat) : Nat :=
  digits.foldl (fun n digit => n * 10 + digit) 0

/-- A power of ten as a double. -/
def floatTenPower (n : Nat) : Float :=
  Float.ofScientific 1 false n

/-- A word scaled by a power of ten, unless the result is too large for a double. -/
def scaleWord? (word : Nat) (exponent : Int) : Option Float :=
  let x := (UInt64.ofNat word).toFloat
  if 308 < exponent then if word = 0 then some x else none
  else if 0 ≤ exponent then
    let scaled := x * floatTenPower exponent.toNat
    if scaled.isInf then none else some scaled
  else
    let down := (-exponent).toNat
    if down ≤ 308 then some (x / floatTenPower down)
    else if down ≤ 616 then some (x / floatTenPower 308 / floatTenPower (down - 308))
    else some 0.0

/-- The largest exponent that is told apart from larger ones. -/
def maxExponent : Nat := 0x7FFFFFFF

/-- The double that a number text stands for, without its sign. -/
def NumberParts.magnitude? (parts : NumberParts) : Option Float :=
  let (word, left) := appendDigits 0 parts.whole
  let fraction := parts.fraction.getD []
  let (word, unused) := appendDigits word fraction
  let shift : Int := (left.length : Int) - ((fraction.length - unused.length : Nat) : Int)
  match parts.exponent with
  | none => scaleWord? word shift
  | some (negative, digits) =>
    let exponent := digitsValue digits
    if maxExponent < exponent then
      if word ≠ 0 ∧ negative = false then none else some 0.0
    else scaleWord? word (if negative then shift - exponent else shift + exponent)

/-- The integer that a number text stands for, if it has no fraction or exponent and fits. -/
def NumberParts.int? (parts : NumberParts) : Option Int :=
  if parts.fraction.isSome || parts.exponent.isSome then none
  else
    let value := digitsValue parts.whole
    if parts.negative then
      if 0 < value ∧ value ≤ 0x8000000000000000 then some (-(value : Int)) else none
    else if value ≤ maxWord then some value
    else none

/-- The number that a number text stands for, unless it is too large. -/
def NumberParts.number? (parts : NumberParts) : Option Number :=
  match parts.int? with
  | some n => some (.int n)
  | none => parts.magnitude?.map fun x => .float (if parts.negative then -x else x)

/-- Doubles are written in place for magnitudes from `10 ^ -5` up to `10 ^ 16`. -/
def floatFormat : Decimal.Format := { lowest := some (-5), highest := some 16 }

/-- The text of a number. -/
def Number.chars : Number → List Char
  | int n => Decimal.intChars n
  | float x => (floatFormat.writeFloat x).toList

end RecordText.Json
