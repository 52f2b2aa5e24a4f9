import RecordText.Json.NumberText
import RecordText.Text.Start

/-!
# Reading JSON

A text is read by the standard grammar: one value between blanks. Arrays and
objects may be nested 127 deep. In strings, control characters and halves of
surrogate pairs are refused. When a key is repeated in an object, the last
value counts and the first place is kept.

## Implementation notes

Every reader takes the text from its position on and returns what it read with
the text behind it. The readers of values, items and members call each other;
they share a fuel argument that the whole text's length bounds.
-/

namespace RecordText.Json

/-- Blanks between the tokens of a JSON text. -/
def isJsonBlank (c : Char) : Bool :=
  c == ' ' || c == '\n' || c == '\t' || c == '\r'

/-- Skip blanks. -/
def skipBlanks (text : List Char) : List Char :=
  text.dropWhile isJsonBlank

/-- The value of a hexadecimal digit. -/
def hexValue? (c : Char) : Option Nat :=
  if '0' ≤ c ∧ c ≤ '9' then some (c.toNat - '0'.toNat)
  else if 'a' ≤ c ∧ c ≤ 'f' then some (c.toNat - 'a'.toNat + 10)
  else if 'A' ≤ c ∧ c ≤ 'F' then some (c.toNat - 'A'.toNat + 10)
  else none

/-- The number that four hexadecimal digits stand for. -/
def fourHex? (a b c d : Char) : Option Nat := do
  let a ← hexValue? a
  let b ← hexValue? b
  let c ← hexValue? c
  let d ← hexValue? d
  return ((a * 16 + b) * 16 + c) * 16 + d

/-- Whether a unit is the first half of a surrogate pair. -/
def isHighHalf (n : Nat) : Bool := 0xD800 ≤ n && n ≤ 0xDBFF

/-- Whether a unit is the second half of a surrogate pair. -/
def isLowHalf (n : Nat) : Bool := 0xDC00 ≤ n && n ≤ 0xDFFF

/-- The character that a surrogate pair stands for. -/
def pairChar (high low : Nat) : Char :=
  Char.ofNat (0x10000 + (high - 0xD800) * 0x400 + (low - 0xDC00))

/-- The character that a backslash followed by `c` stands for, `u` apart. -/
def plainEscape? (c : Char) : Option Char :=
  if c = '"' then some '"'
  else if c = '\\' then some '\\'
  else if c = '/' then some '/'
  else if c = 'b' then some '\x08'
  else if c = 'f' then some '\x0c'
  else if c = 'n' then some '\n'
  else if c = 'r' then some '\r'
  else if c = 't' then some '\t'
  else none

/-- Put a character in front of what a reader of strings read. -/
def consRead (c : Char) (read : Option (List Char × List Char)) :
    Option (List Char × List Char) :=
  read.map fun result => (c :: result.1, result.2)

/-- Read the rest of a string, from behind its opening quote to behind its closing one. -/
def readStringTail? : List Char → Option (List Char × List Char)
  | [] => none
  | '"' :: rest => some ([], rest)
  | '\\' :: 'u' :: a :: b :: c :: d :: '\\' :: 'u' :: e :: f :: g :: h :: rest =>
    match fourHex? a b c d with
    | none => none
    | some unit =>
      if isHighHalf unit then
        match fourHex? e f g h with
        | none => none
        | some second =>
          if isLowHalf second then consRead (pairChar unit second) (readStringTail? rest)
          else none
      else if isLowHalf unit then none
      else
        consRead (Char.ofNat unit) (readStringTail? ('\\' :: 'u' :: e :: f :: g :: h :: rest))
  | '\\' :: 'u' :: a :: b :: c :: d :: rest =>
    match fourHex? a b c d with
    | none => none
    | some unit =>
      if isHighHalf unit || isLowHalf unit then none
      else consRead (Char.ofNat unit) (readStringTail? rest)
  | '\\' :: c :: rest =>
    match plainEscape? c with
    | none => none
    | some plain => consRead plain (readStringTail? rest)
  | c :: rest => if c.toNat < 0x20 ∨ c = '\\' then none else consRead c (readStringTail? rest)

/-- Read a word if the text starts with it. -/
def readWord? (word : String) (value : Json) (text : List Char) : Option (Json × List Char) :=
  (Text.behind? word.toList text).map fun rest => (value, rest)

/-- Read a number. -/
def readNumber? (text : List Char) : Option (Json × List Char) := do
  let (parts, rest) ← readNumberParts? text
  let number ← parts.number?
  return (.number number, rest)

mutual

/-- Read a value that starts at the front, with `depth` levels of nesting left. -/
def readValue? : (fuel depth : Nat) → List Char → Option (Json × List Char)
  | 0, _, _ => none
  | fuel + 1, depth, text =>
    match text with
    | [] => none
    | c :: rest =>
      if c = '[' then
        if depth ≤ 1 then none
        else
          match skipBlanks rest with
          | ']' :: rest => some (.array [], rest)
          | rest => readItems? fuel (depth - 1) [] rest
      else if c = '\x7b' then
        if depth ≤ 1 then none
        else
          match skipBlanks rest with
          | '\x7d' :: rest => some (.object [], rest)
          | rest => readMembers? fuel (depth - 1) [] rest
      else if c = '"' then
        (readStringTail? rest).map fun read => (.string (String.ofList read.1), read.2)
      else if c = 'n' then readWord? "null" .null text
      else if c = 't' then readWord? "true" (.bool true) text
      else if c = 'f' then readWord? "false" (.bool false) text
      else readNumber? text

/-- Read the items of an array, of which `items` have been read, in reverse. -/
def readItems? : (fuel depth : Nat) → List Json → List Char → Option (Json × List Char)
  | 0, _, _, _ => none
  | fuel + 1, depth, items, text =>
    match readValue? fuel depth (skipBlanks text) with
    | none => none
    | some (item, rest) =>
      match skipBlanks rest with
      | ',' :: rest => readItems? fuel depth (item :: items) rest
      | ']' :: rest => some (.array (item :: items).reverse, rest)
      | _ => none

/-- Read the members of an object, of which `members` have been read. -/
def readMembers? : (fuel depth : Nat) → List (String × Json) → List Char →
    Option (Json × List Char)
  | 0, _, _, _ => none
  | fuel + 1, depth, members, text =>
    match skipBlanks text with
    | '"' :: rest =>
      match readStringTail? rest with
      | none => none
      | some (key, rest) =>
        match skipBlanks rest with
        | ':' :: rest =>
          match readValue? fuel depth (skipBlanks rest) with
          | none => none
          | some (value, rest) =>
            let members := setKey members (String.ofList key) value
            match skipBlanks rest with
            | ',' :: rest => readMembers? fuel depth members rest
            | '\x7d' :: rest => some (.object members, rest)
            | _ => none
        | _ => none
    | _ => none

end

/-- One more than the deepest nesting of arrays and objects. -/
def depthLimit : Nat := 128

/-- Read a whole text as one value. -/
def parseChars? (text : List Char) : Option Json :=
  match readValue? (2 * text.length + 2) depthLimit (skipBlanks text) with
  | some (value, rest) => if (skipBlanks rest).isEmpty then some value else none
  | none => none

/-- Read a whole string as one value. -/
def parse? (text : String) : Option Json :=
  parseChars? text.toList

end RecordText.Json
