import RecordText.Query.Lexeme
import RecordText.Query.Term

/-!
# Grammar of queries

Lexemes are read as a term. Operators are ordered by how tightly they bind, from
the pipe, which binds least, over commas, assignments, alternatives, the words
`or` and `and`, comparisons and sums to products and remainders. A binding with
`as` reaches as far to the right as a pipe.

## Implementation notes

Every reader takes the lexemes from its position on and returns what it read
with the lexemes behind it. The flag `comma` tells whether a comma is an
operator at this place; inside an object it separates entries. All readers
share a fuel argument.
-/

namespace RecordText.Query

/-- An operator with its place in the order of binding. -/
structure Binding where
  strength : Nat
  /-- Whether a chain of such operators is grouped from the right. -/
  fromRight : Bool
  combine : Term → Term → Term

/-- The words that cannot name a filter. -/
def keywords : List String :=
  ["def", "if", "then", "elif", "else", "end", "try", "catch", "label", "break", "reduce",
    "foreach", "as", "and", "or", "import", "include"]

/-- The binding of an operator that computes with the outputs of its sides. -/
def leftBinding (strength : Nat) (op : Operator) : Binding :=
  { strength, fromRight := false, combine := fun left right => .binary left op right }

/-- The binding of an operator that changes the input. -/
def assignBinding (op : Operator) : Binding :=
  { strength := 2, fromRight := true, combine := fun left right => .binary left op right }

/-- The operator that a sign stands for. -/
def signBinding? (comma : Bool) (sign : String) : Option Binding :=
  match sign with
  | "|" => some { strength := 0, fromRight := true, combine := .pipe }
  | "," => if comma then some { strength := 1, fromRight := false, combine := .comma } else none
  | "=" => some (assignBinding .assign)
  | "|=" => some (assignBinding .update)
  | "+=" => some (assignBinding (.updateArithmetic .add))
  | "-=" => some (assignBinding (.updateArithmetic .subtract))
  | "*=" => some (assignBinding (.updateArithmetic .multiply))
  | "/=" => some (assignBinding (.updateArithmetic .divide))
  | "%=" => some (assignBinding (.updateArithmetic .remainder))
  | "//=" => some (assignBinding .updateAlternative)
  | "//" =>
    some { strength := 3, fromRight := true,
           combine := fun left right => .binary left .alternative right }
  | "==" => some (leftBinding 6 (.comparison .equal))
  | "!=" => some (leftBinding 6 (.comparison .different))
  | "<" => some (leftBinding 7 (.comparison .less))
  | "<=" => some (leftBinding 7 (.comparison .lessEqual))
  | ">" => some (leftBinding 7 (.comparison .greater))
  | ">=" => some (leftBinding 7 (.comparison .greaterEqual))
  | "+" => some (leftBinding 8 (.arithmetic .add))
  | "-" => some (leftBinding 8 (.arithmetic .subtract))
  | "*" => some (leftBinding 9 (.arithmetic .multiply))
  | "/" => some (leftBinding 9 (.arithmetic .divide))
  | "%" => some (leftBinding 10 (.arithmetic .remainder))
  | _ => none

/-- The operator that a lexeme stands for. -/
def binding? (comma : Bool) (lexeme : Lexeme) : Option Binding :=
  match lexeme with
  | .sign sign => signBinding? comma sign
  | .word "or" => some (leftBinding 4 .either)
  | .word "and" => some (leftBinding 5 .both)
  | _ => none

/-- Read a given sign. -/
def readSign? (sign : String) (lexemes : List Lexeme) : Option (List Lexeme) :=
  match lexemes with
  | .sign text :: rest => if text = sign then some rest else none
  | _ => none

/-- Read a given word. -/
def readKeyword? (word : String) (lexemes : List Lexeme) : Option (List Lexeme) :=
  match lexemes with
  | .word text :: rest => if text = word then some rest else none
  | _ => none

/-- Read the parameters of a definition behind their opening parenthesis; a parameter that stands
for a value is returned with its dollar sign. -/
def readParams? : List Lexeme → Option (List String × List Lexeme)
  | .word name :: .sign ")" :: rest => some ([name], rest)
  | .variable name :: .sign ")" :: rest => some (["$" ++ name], rest)
  | .word name :: .sign ";" :: rest => do
    let (names, rest) ← readParams? rest
    return (name :: names, rest)
  | .variable name :: .sign ";" :: rest => do
    let (names, rest) ← readParams? rest
    return (("$" ++ name) :: names, rest)
  | _ => none

/-- Read question marks: whether there is one. -/
def readMarks : List Lexeme → Bool × List Lexeme
  | .sign "?" :: rest => (true, (readMarks rest).2)
  | rest => (false, rest)

/-- A fold with its arguments; a wrong number of them leaves an unknown filter. -/
def foldTerm (kind : String) (source : Term) (pattern : Pattern) (args : List Term) : Term :=
  match kind, args with
  | "reduce", [start, step] => .reduce source pattern start step
  | "foreach", [start, step] => .foreach source pattern start step none
  | "foreach", [start, step, view] => .foreach source pattern start step (some view)
  | _, _ => .call kind args

mutual

/-- Read a term whose operators bind at least as tightly as `least`. -/
def readTerm? : (fuel : Nat) → (comma : Bool) → (least : Nat) → List Lexeme →
    Option (Term × List Lexeme)
  | 0, _, _, _ => none
  | fuel + 1, comma, least, lexemes => do
    let (head, rest) ← readAtom? fuel comma lexemes
    readOperators? fuel comma least head rest

/-- Read operators and their right sides behind a term. -/
def readOperators? : (fuel : Nat) → (comma : Bool) → (least : Nat) → Term → List Lexeme →
    Option (Term × List Lexeme)
  | 0, _, _, _, _ => none
  | fuel + 1, comma, least, left, lexemes =>
    match lexemes with
    | [] => some (left, [])
    | .word "as" :: rest =>
      if least = 0 then do
        let (pattern, rest) ← readPattern? fuel rest
        let rest ← readSign? "|" rest
        let (body, rest) ← readTerm? fuel comma 0 rest
        return (.bind left pattern body, rest)
      else some (left, lexemes)
    | lexeme :: rest =>
      match binding? comma lexeme with
      | none => some (left, lexemes)
      | some binding =>
        if binding.strength < least then some (left, lexemes)
        else do
          let next := if binding.fromRight then binding.strength else binding.strength + 1
          let (right, rest) ← readTerm? fuel comma next rest
          readOperators? fuel comma least (binding.combine left right) rest

/-- Read a term without operators, together with the path behind it. -/
def readAtom? : (fuel : Nat) → (comma : Bool) → List Lexeme → Option (Term × List Lexeme)
  | 0, _, _ => none
  | fuel + 1, comma, lexemes =>
    match lexemes with
    | .sign "-" :: rest => do
      let (body, rest) ← readAtom? fuel comma rest
      return (.negate body, rest)
    | .word "def" :: .word name :: rest => do
      let (params, rest) ← match rest with
        | .sign "(" :: rest => readParams? rest
        | _ => some ([], rest)
      let rest ← readSign? ":" rest
      let (body, rest) ← readTerm? fuel true 0 rest
      let rest ← readSign? ";" rest
      let (after, rest) ← readTerm? fuel comma 0 rest
      return (.define name params body after, rest)
    | .word "label" :: .variable name :: .sign "|" :: rest => do
      let (body, rest) ← readTerm? fuel comma 0 rest
      return (.label name body, rest)
    | .word "break" :: .variable name :: rest => readPath? fuel (.leave name) rest
    | .word "if" :: rest => do
      let (cases, otherwise, rest) ← readCases? fuel rest
      readPath? fuel (.cond cases otherwise) rest
    | .word "try" :: rest => do
      let (body, rest) ← readAtom? fuel comma rest
      match readKeyword? "catch" rest with
      | none => return (.attempt body none, rest)
      | some rest =>
        let (handler, rest) ← readAtom? fuel comma rest
        return (.attempt body (some handler), rest)
    | .word word :: rest =>
      if word = "reduce" ∨ word = "foreach" then do
        let (source, rest) ← readAtom? fuel comma rest
        let rest ← readKeyword? "as" rest
        let (pattern, rest) ← readPattern? fuel rest
        let rest ← readSign? "(" rest
        let (args, rest) ← readArgs? fuel rest
        readPath? fuel (foldTerm word source pattern args) rest
      else if keywords.contains word then none
      else
        match rest with
        | .sign "(" :: rest => do
          let (args, rest) ← readArgs? fuel rest
          readPath? fuel (.call word args) rest
        | _ => readPath? fuel (.call word []) rest
    | .variable name :: rest => readPath? fuel (.variable name) rest
    | .number text :: rest => readPath? fuel (.number text) rest
    | .quoted pieces :: rest => do
      let pieces ← readPieces? fuel pieces
      readPath? fuel (.text none pieces) rest
    | .format name :: .quoted pieces :: rest => do
      let pieces ← readPieces? fuel pieces
      readPath? fuel (.text (some name) pieces) rest
    | .format name :: rest => readPath? fuel (.call name []) rest
    | .field _ :: _ => readPath? fuel .identity lexemes
    | .sign ".." :: rest => readPath? fuel .recurse rest
    | .sign "." :: .sign "[" :: _ => readPath? fuel .identity lexemes
    | .sign "." :: .quoted _ :: _ => readPath? fuel .identity lexemes
    | .sign "." :: rest => readPath? fuel .identity rest
    | .sign "(" :: rest => do
      let (body, rest) ← readTerm? fuel true 0 rest
      let rest ← readSign? ")" rest
      readPath? fuel body rest
    | .sign "[" :: .sign "]" :: rest => readPath? fuel (.array none) rest
    | .sign "[" :: rest => do
      let (body, rest) ← readTerm? fuel true 0 rest
      let rest ← readSign? "]" rest
      readPath? fuel (.array (some body)) rest
    | .sign "\x7b" :: .sign "\x7d" :: rest => readPath? fuel (.object []) rest
    | .sign "\x7b" :: rest => do
      let (entries, rest) ← readEntries? fuel rest
      readPath? fuel (.object entries) rest
    | _ => none

/-- Read the path behind a term. -/
def readPath? : (fuel : Nat) → Term → List Lexeme → Option (Term × List Lexeme)
  | 0, _, _ => none
  | fuel + 1, base, lexemes =>
    match lexemes with
    | .sign "?" :: rest => readPath? fuel (.attempt base none) rest
    | _ => do
      let (parts, rest) ← readParts? fuel lexemes
      return (if parts.isEmpty then base else .path base parts, rest)

/-- Read the steps of a path. -/
def readParts? : (fuel : Nat) → List Lexeme → Option (List Part × List Lexeme)
  | 0, _ => none
  | fuel + 1, lexemes =>
    let next : Option (Option (Part × List Lexeme)) := match lexemes with
      | .field name :: rest => some (some (.index (.ofText name) false, rest))
      | .sign "." :: .quoted pieces :: rest =>
        some ((readPieces? fuel pieces).map fun pieces => (.index (.text none pieces) false, rest))
      | .sign "." :: .sign "[" :: rest => some (readBracket? fuel rest)
      | .sign "[" :: rest => some (readBracket? fuel rest)
      | _ => none
    match next with
    | none => some ([], lexemes)
    | some none => none
    | some (some (part, rest)) => do
      let (optional, rest) := readMarks rest
      let (parts, rest) ← readParts? fuel rest
      return ((if optional then part.optional else part) :: parts, rest)

/-- Read a step in brackets, from behind the opening one. -/
def readBracket? : (fuel : Nat) → List Lexeme → Option (Part × List Lexeme)
  | 0, _ => none
  | fuel + 1, lexemes =>
    match lexemes with
    | .sign "]" :: rest => some (.each false, rest)
    | .sign ":" :: rest => do
      let (upto, rest) ← readTerm? fuel true 0 rest
      let rest ← readSign? "]" rest
      return (.slice none (some upto) false, rest)
    | _ => do
      let (key, rest) ← readTerm? fuel true 0 lexemes
      match rest with
      | .sign "]" :: rest => return (.index key false, rest)
      | .sign ":" :: .sign "]" :: rest => return (.slice (some key) none false, rest)
      | .sign ":" :: rest =>
        let (upto, rest) ← readTerm? fuel true 0 rest
        let rest ← readSign? "]" rest
        return (.slice (some key) (some upto) false, rest)
      | _ => none

/-- Read arguments behind their opening parenthesis. -/
def readArgs? : (fuel : Nat) → List Lexeme → Option (List Term × List Lexeme)
  | 0, _ => none
  | fuel + 1, lexemes => do
    let (arg, rest) ← readTerm? fuel true 0 lexemes
    match rest with
    | .sign ")" :: rest => return ([arg], rest)
    | .sign ";" :: rest =>
      let (args, rest) ← readArgs? fuel rest
      return (arg :: args, rest)
    | _ => none

/-- Read the cases of a condition behind its first word, up to its last word. -/
def readCases? : (fuel : Nat) → List Lexeme →
    Option (List (Term × Term) × Option Term × List Lexeme)
  | 0, _ => none
  | fuel + 1, lexemes => do
    let (test, rest) ← readTerm? fuel true 0 lexemes
    let rest ← readKeyword? "then" rest
    let (body, rest) ← readTerm? fuel true 0 rest
    match rest with
    | .word "end" :: rest => return ([(test, body)], none, rest)
    | .word "else" :: rest =>
      let (otherwise, rest) ← readTerm? fuel true 0 rest
      let rest ← readKeyword? "end" rest
      return ([(test, body)], some otherwise, rest)
    | .word "elif" :: rest =>
      let (cases, otherwise, rest) ← readCases? fuel rest
      return ((test, body) :: cases, otherwise, rest)
    | _ => none

/-- Read the pieces of a text. -/
def readPieces? : (fuel : Nat) → List QuotedPiece → Option (List Piece)
  | 0, _ => none
  | fuel + 1, pieces =>
    match pieces with
    | [] => some []
    | .chars text :: rest => do
      let rest ← readPieces? fuel rest
      return .chars text :: rest
    | .code lexemes :: rest => do
      let (body, left) ← readTerm? fuel true 0 lexemes
      if left.isEmpty then
        let rest ← readPieces? fuel rest
        return .term body :: rest
      else none

/-- Read the entries of an object behind its opening brace. -/
def readEntries? : (fuel : Nat) → List Lexeme → Option (List (Term × Term) × List Lexeme)
  | 0, _ => none
  | fuel + 1, lexemes => do
    let (entry, rest) ← readEntry? fuel lexemes
    match rest with
    | .sign "\x7d" :: rest => return ([entry], rest)
    | .sign "," :: rest =>
      let (entries, rest) ← readEntries? fuel rest
      return (entry :: entries, rest)
    | _ => none

/-- Read one entry of an object: a key with its value, or a key that names the value. -/
def readEntry? : (fuel : Nat) → List Lexeme → Option ((Term × Term) × List Lexeme)
  | 0, _ => none
  | fuel + 1, lexemes => do
    let (key, default, rest) ← match lexemes with
      | .word name :: rest => some (Term.ofText name, some (Term.key (.ofText name)), rest)
      | .variable name :: rest =>
        match rest with
        | .sign ":" :: _ => some (.variable name, none, rest)
        | _ => some (Term.ofText name, some (Term.variable name), rest)
      | .quoted pieces :: rest => do
        let pieces ← readPieces? fuel pieces
        some (.text none pieces, some (Term.key (.text none pieces)), rest)
      | .format name :: .quoted pieces :: rest => do
        let pieces ← readPieces? fuel pieces
        some (.text (some name) pieces, some (Term.key (.text (some name) pieces)), rest)
      | .sign "(" :: rest => do
        let (key, rest) ← readTerm? fuel true 0 rest
        let rest ← readSign? ")" rest
        some (key, none, rest)
      | _ => none
    match rest with
    | .sign ":" :: rest =>
      let (value, rest) ← readTerm? fuel false 0 rest
      return ((key, value), rest)
    | _ =>
      let value ← default
      return ((key, value), rest)

/-- Read a pattern. -/
def readPattern? : (fuel : Nat) → List Lexeme → Option (Pattern × List Lexeme)
  | 0, _ => none
  | fuel + 1, lexemes =>
    match lexemes with
    | .variable name :: rest => some (.variable name, rest)
    | .sign "[" :: rest => do
      let (items, rest) ← readPatterns? fuel rest
      return (.array items, rest)
    | .sign "\x7b" :: rest => do
      let (entries, rest) ← readPatternEntries? fuel rest
      return (.object entries, rest)
    | _ => none

/-- Read the patterns of an array behind its opening bracket. -/
def readPatterns? : (fuel : Nat) → List Lexeme → Option (List Pattern × List Lexeme)
  | 0, _ => none
  | fuel + 1, lexemes => do
    let (item, rest) ← readPattern? fuel lexemes
    match rest with
    | .sign "]" :: rest => return ([item], rest)
    | .sign "," :: rest =>
      let (items, rest) ← readPatterns? fuel rest
      return (item :: items, rest)
    | _ => none

/-- Read the entries of an object pattern behind its opening brace. -/
def readPatternEntries? : (fuel : Nat) → List Lexeme → Option (List (Term × Pattern) × List Lexeme)
  | 0, _ => none
  | fuel + 1, lexemes => do
    let (entries, rest) ← readPatternEntry? fuel lexemes
    match rest with
    | .sign "\x7d" :: rest => return (entries, rest)
    | .sign "," :: rest =>
      let (more, rest) ← readPatternEntries? fuel rest
      return (entries ++ more, rest)
    | _ => none

/-- Read one entry of an object pattern; a variable names the part under its own name, and a
pattern may follow it. -/
def readPatternEntry? : (fuel : Nat) → List Lexeme → Option (List (Term × Pattern) × List Lexeme)
  | 0, _ => none
  | fuel + 1, lexemes =>
    match lexemes with
    | .variable name :: .sign ":" :: rest => do
      let (pattern, rest) ← readPattern? fuel rest
      return ([(.ofText name, .variable name), (.ofText name, pattern)], rest)
    | .variable name :: rest => some ([(.ofText name, .variable name)], rest)
    | .word name :: .sign ":" :: rest => do
      let (pattern, rest) ← readPattern? fuel rest
      return ([(.ofText name, pattern)], rest)
    | .quoted pieces :: .sign ":" :: rest => do
      let pieces ← readPieces? fuel pieces
      let (pattern, rest) ← readPattern? fuel rest
      return ([(.text none pieces, pattern)], rest)
    | .sign "(" :: rest => do
      let (key, rest) ← readTerm? fuel true 0 rest
      let rest ← readSign? ")" rest
      let rest ← readSign? ":" rest
      let (pattern, rest) ← readPattern? fuel rest
      return ([(key, pattern)], rest)
    | _ => none

end

/-- Read the text of a query as a term. -/
def Term.parse? (text : String) : Option Term := do
  let lexemes ← lexemes? text
  let (term, rest) ← readTerm? (8 * text.length + 8) true 0 lexemes
  if rest.isEmpty then some term else none

/-- A named filter with parameters. -/
structure Definition where
  name : String
  params : List String
  body : Term

/-- Read definitions that follow each other. -/
def readDefinitions? : (fuel : Nat) → List Lexeme → Option (List Definition)
  | 0, _ => none
  | fuel + 1, lexemes =>
    match lexemes with
    | [] => some []
    | .word "def" :: .word name :: rest => do
      let (params, rest) ← match rest with
        | .sign "(" :: rest => readParams? rest
        | _ => some ([], rest)
      let rest ← readSign? ":" rest
      let (body, rest) ← readTerm? fuel true 0 rest
      let rest ← readSign? ";" rest
      let definitions ← readDefinitions? fuel rest
      return { name, params, body } :: definitions
    | _ => none

end RecordText.Query
