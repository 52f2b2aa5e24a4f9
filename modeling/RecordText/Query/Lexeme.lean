import RecordText.Text.Blank

/-!
# Lexemes of queries

The text of a query is cut into lexemes: words, variables, formats, numbers,
fields, texts and signs. Between them stand blanks and comments, which run from
a number sign to the end of the line; a comment whose line ends with an odd
number of backslashes goes on in the next line.

A text may hold terms between `\(` and `)`, which are cut into lexemes as well.

## Implementation notes

Adjacent operator signs make up one lexeme, whether or not an operator has that
name. All functions that call each other share a fuel argument.
-/

namespace RecordText.Query

open RecordText.Text

mutual

/-- A lexeme of a query. -/
inductive Lexeme where
  | word (text : String)
  | variable (name : String)
  | format (name : String)
  | number (text : String)
  | field (name : String)
  | sign (text : String)
  | quoted (pieces : List QuotedPiece)

/-- A piece of a text: characters, or the lexemes of a term. -/
inductive QuotedPiece where
  | chars (text : String)
  | code (lexemes : List Lexeme)

end

/-- Whether a word may start with `c`. -/
def isWordStart (c : Char) : Bool :=
  c.isAlpha || c == '_'

/-- Whether a word may go on with `c`. -/
def isWordRest (c : Char) : Bool :=
  c.isAlphanum || c == '_'

/-- Whether `c` may stand in an operator. -/
def isOperatorChar (c : Char) : Bool :=
  ['|', '=', '!', '<', '>', '+', '-', '*', '/', '%'].contains c

/-- Whether `c` is a sign by itself. -/
def isSingleSign (c : Char) : Bool :=
  ['(', ')', '[', ']', '\x7b', '\x7d', ',', ';', ':', '?'].contains c

/-- Whether a line ends with an odd number of backslashes. -/
def endsWithOddBackslashes (line : List Char) : Bool :=
  (line.reverse.takeWhile (· = '\\')).length % 2 = 1

/-- Skip blanks and comments. -/
def skipSpace : (fuel : Nat) → List Char → List Char
  | 0, text => text
  | fuel + 1, text =>
    match trimStart text with
    | '#' :: comment => skipSpace fuel (skipComment fuel comment)
    | rest => rest
where
  /-- Skip a comment and the lines that it goes on in. -/
  skipComment : (fuel : Nat) → List Char → List Char
    | 0, text => text
    | fuel + 1, text =>
      let line := text.takeWhile (· ≠ '\n')
      let rest := (text.dropWhile (· ≠ '\n')).drop 1
      let line := match line.reverse with
        | '\r' :: front => front.reverse
        | _ => line
      if endsWithOddBackslashes line && !rest.isEmpty then skipComment fuel rest else rest

/-- Read a word. -/
def readWord (text : List Char) : String × List Char :=
  (String.ofList (text.takeWhile isWordRest), text.dropWhile isWordRest)

/-- Read a non-empty word. -/
def readName? (text : List Char) : Option (String × List Char) :=
  match text with
  | c :: _ => if isWordStart c then some (readWord text) else none
  | [] => none

/-- Read digits. -/
def readDigitChars (text : List Char) : List Char × List Char :=
  (text.takeWhile Char.isDigit, text.dropWhile Char.isDigit)

/-- Read the fraction of a number, if a point follows. -/
def readFractionChars (text : List Char) : List Char × List Char :=
  match text with
  | '.' :: rest => ('.' :: (readDigitChars rest).1, (readDigitChars rest).2)
  | _ => ([], text)

/-- Read the exponent of a number, if its letter follows; it needs a digit. -/
def readExponentChars? (text : List Char) : Option (List Char × List Char) :=
  match text with
  | c :: rest =>
    if c = 'e' ∨ c = 'E' then
      let (sign, rest) : List Char × List Char := match rest with
        | '+' :: rest => (['+'], rest)
        | '-' :: rest => (['-'], rest)
        | _ => ([], rest)
      match readDigitChars rest with
      | ([], _) => none
      | (digits, rest) => some (c :: sign ++ digits, rest)
    else some ([], text)
  | [] => some ([], text)

/-- Read a number. -/
def readNumberText? (text : List Char) : Option (String × List Char) := do
  let (whole, rest) := readDigitChars text
  let (fraction, rest) := readFractionChars rest
  let (exponent, rest) ← readExponentChars? rest
  return (String.ofList (whole ++ fraction ++ exponent), rest)

/-- The value of a hexadecimal digit. -/
def hexDigitValue? (c : Char) : Option Nat :=
  if c.isDigit then some (c.toNat - '0'.toNat)
  else if 'a' ≤ c ∧ c ≤ 'f' then some (c.toNat - 'a'.toNat + 10)
  else if 'A' ≤ c ∧ c ≤ 'F' then some (c.toNat - 'A'.toNat + 10)
  else none

/-- The character with the given code, unless the code is half of a surrogate pair. -/
def codeChar? (n : Nat) : Option Char :=
  if 0xD800 ≤ n ∧ n ≤ 0xDFFF then none else some (Char.ofNat n)

/-- Read the escape behind a backslash, interpolation apart. -/
def readEscape? (text : List Char) : Option (Char × List Char) :=
  match text with
  | 'u' :: a :: b :: c :: d :: rest => do
    let a ← hexDigitValue? a
    let b ← hexDigitValue? b
    let c ← hexDigitValue? c
    let d ← hexDigitValue? d
    let decoded ← codeChar? (((a * 16 + b) * 16 + c) * 16 + d)
    return (decoded, rest)
  | '"' :: rest => some ('"', rest)
  | '\\' :: rest => some ('\\', rest)
  | '/' :: rest => some ('/', rest)
  | 'b' :: rest => some ('\x08', rest)
  | 'f' :: rest => some ('\x0c', rest)
  | 'n' :: rest => some ('\n', rest)
  | 'r' :: rest => some ('\r', rest)
  | 't' :: rest => some ('\t', rest)
  | _ => none

/-- Characters read so far, in reverse, as a piece in front of other pieces. -/
def consChars (read : List Char) (pieces : List QuotedPiece) : List QuotedPiece :=
  if read.isEmpty then pieces else .chars (String.ofList read.reverse) :: pieces

mutual

/-- Read the rest of a text behind its opening quote, `read` holding the characters read since the
last term, in reverse. -/
def readQuoted? : (fuel : Nat) → List Char → List Char → Option (List QuotedPiece × List Char)
  | 0, _, _ => none
  | fuel + 1, read, text =>
    match text with
    | [] => none
    | '"' :: rest => some (consChars read [], rest)
    | '\\' :: '(' :: rest => do
      let (code, rest) ← readLexemes? fuel true 0 rest
      let (pieces, rest) ← readQuoted? fuel [] rest
      return (consChars read (.code code :: pieces), rest)
    | '\\' :: rest => do
      let (c, rest) ← readEscape? rest
      readQuoted? fuel (c :: read) rest
    | c :: rest => readQuoted? fuel (c :: read) rest

/-- Read one lexeme. -/
def readLexeme? : (fuel : Nat) → (c : Char) → (rest : List Char) → Option (Lexeme × List Char)
  | 0, _, _ => none
  | fuel + 1, c, rest =>
    if isWordStart c then
      let (word, rest) := readWord (c :: rest)
      some (.word word, rest)
    else if c.isDigit then do
      let (number, rest) ← readNumberText? (c :: rest)
      return (.number number, rest)
    else if c = '$' then do
      let (name, rest) ← readName? rest
      return (.variable name, rest)
    else if c = '@' then do
      let (name, rest) ← readName? rest
      return (.format ("@" ++ name), rest)
    else if c = '"' then do
      let (pieces, rest) ← readQuoted? fuel [] rest
      return (.quoted pieces, rest)
    else if c = '.' then
      match rest with
      | '.' :: rest => some (.sign "..", rest)
      | _ =>
        match readName? rest with
        | some (name, rest) => some (.field name, rest)
        | none => some (.sign ".", rest)
    else if isSingleSign c then some (.sign (String.ofList [c]), rest)
    else if isOperatorChar c then
      some (.sign (String.ofList (c :: rest.takeWhile isOperatorChar)),
        rest.dropWhile isOperatorChar)
    else none

/-- Read lexemes up to the end of the text or, inside a text, up to the parenthesis that closes the
term, `depth` counting the open ones. -/
def readLexemes? : (fuel : Nat) → (inside : Bool) → (depth : Nat) → List Char →
    Option (List Lexeme × List Char)
  | 0, _, _, _ => none
  | fuel + 1, inside, depth, text =>
    match skipSpace fuel text with
    | [] => if inside then none else some ([], [])
    | c :: rest =>
      if inside && depth == 0 && c == ')' then some ([], rest)
      else do
        let (lexeme, rest) ← readLexeme? fuel c rest
        let depth := if c = '(' then depth + 1 else if c = ')' then depth - 1 else depth
        let (lexemes, rest) ← readLexemes? fuel inside depth rest
        return (lexeme :: lexemes, rest)

end

/-- The lexemes of a query. -/
def lexemes? (text : String) : Option (List Lexeme) :=
  (readLexemes? (3 * text.length + 3) false 0 text.toList).map (·.1)

end RecordText.Query
