/-!
# Lines

A text is a sequence of lines. A line feed ends a line, together with one
carriage return directly before it; the last line need not be ended, and a
text that ends with a line feed has no empty line after it.
-/

namespace RecordText.Text

/-- Put a character in front of the first line. -/
def consLine (c : Char) : List (List Char) → List (List Char)
  | [] => [[c]]
  | line :: rest => (c :: line) :: rest

/-- The lines of a text, without their ends. -/
def lines : List Char → List (List Char)
  | [] => []
  | '\n' :: rest => [] :: lines rest
  | '\r' :: '\n' :: rest => [] :: lines rest
  | c :: rest => consLine c (lines rest)

/-- Lines put one after the other with `sep` between neighbours. -/
def joinWith (sep : List Char) : List (List Char) → List Char
  | [] => []
  | [line] => line
  | line :: next :: rest => line ++ sep ++ joinWith sep (next :: rest)

/-- The part of a text after its last line feed. -/
def lastLine (text : List Char) : List Char :=
  (text.reverse.takeWhile (· ≠ '\n')).reverse

/-- The part of a text up to and including its last line feed. -/
def beforeLastLine (text : List Char) : List Char :=
  (text.reverse.dropWhile (· ≠ '\n')).reverse

/-- A text is its complete lines followed by its last line. -/
theorem beforeLastLine_append_lastLine (text : List Char) :
    beforeLastLine text ++ lastLine text = text := by
  rw [beforeLastLine, lastLine, ← List.reverse_append, List.takeWhile_append_dropWhile,
    List.reverse_reverse]

/-- Whether a carriage return stands directly before some line feed. -/
def hasCarriageReturnLineFeed : List Char → Bool
  | [] => false
  | '\r' :: '\n' :: _ => true
  | _ :: rest => hasCarriageReturnLineFeed rest

/-- The number of line feeds. -/
def lineFeeds (text : List Char) : Nat :=
  text.countP (· = '\n')

end RecordText.Text
