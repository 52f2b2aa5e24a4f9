import RecordText.Text.Invisible

/-!
# Dumped text

A dump shows a text between double quotes so that every character can be told
apart: invisible characters are written by their code point in hexadecimal.
-/

namespace RecordText.Text

/-- The hexadecimal digits of a number, in lower case and without leading zeros. -/
def hexDigits (n : Nat) : List Char :=
  Nat.toDigits 16 n

/-- How a character is written in a dump. -/
def dumpChar (c : Char) : List Char :=
  if c = '"' then ['\\', '"']
  else if c = '\\' then ['\\', '\\']
  else if c = '\n' then ['\\', 'n']
  else if c = '\r' then ['\\', 'r']
  else if c = '\t' then ['\\', 't']
  else if c.toNat = 0 then ['\\', '0']
  else if isInvisible c then ['\\', 'u', '\x7b'] ++ hexDigits c.toNat ++ ['\x7d']
  else [c]

/-- A string as a dump shows it. -/
def dump (text : String) : String :=
  String.ofList ('"' :: text.toList.flatMap dumpChar ++ ['"'])

end RecordText.Text
