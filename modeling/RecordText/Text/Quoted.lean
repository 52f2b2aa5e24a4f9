/-!
# Quoted text

A quoted text stands between double quotes. Inside, five characters are
written as a backslash and a letter or sign, so that the quoted text stays on
its line and ends at its first bare quote.
-/

namespace RecordText.Text

/-- How a character is written between the quotes. -/
def escapeChar (c : Char) : List Char :=
  if c = '"' then ['\\', '"']
  else if c = '\\' then ['\\', '\\']
  else if c = '\n' then ['\\', 'n']
  else if c = '\r' then ['\\', 'r']
  else if c = '\t' then ['\\', 't']
  else [c]

/-- The text between the quotes. -/
def escape (text : List Char) : List Char :=
  text.flatMap escapeChar

/-- The character that a backslash followed by `c` stands for. -/
def unescapeChar? (c : Char) : Option Char :=
  if c = '"' then some '"'
  else if c = '\\' then some '\\'
  else if c = 'n' then some '\n'
  else if c = 'r' then some '\r'
  else if c = 't' then some '\t'
  else none

/-- Read the text between the quotes back. -/
def unescape? : List Char → Option (List Char)
  | [] => some []
  | ['\\'] => none
  | '\\' :: c :: rest => do
    let plain ← unescapeChar? c
    let tail ← unescape? rest
    return plain :: tail
  | c :: rest => if c = '"' then none else (unescape? rest).map (c :: ·)

/-- A text between double quotes, escaped. -/
def quoteChars (text : List Char) : List Char :=
  '"' :: escape text ++ ['"']

/-- A string between double quotes, escaped. -/
def quote (text : String) : String :=
  String.ofList (quoteChars text.toList)

end RecordText.Text
