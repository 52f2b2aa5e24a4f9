import RecordText.Text.Blank
import RecordText.Text.Lines
import RecordText.Text.Offset

/-!
# Insertion of members

A member is inserted into a text as whole lines in front of a byte offset. Its
lines are indented one unit deeper than the line that holds the offset. An
empty line separates the member from what precedes it, unless nothing but
blanks precedes it or the last sign before it is an opening brace.

If only blanks stand before the offset on its line, the member goes in front of
that line. Otherwise the line is broken at the offset, spaces and tabs in front
of the break are dropped, and the rest continues on a line of its own with the
same indentation.
-/

namespace RecordText.Edit

open RecordText.Text

/-- Why a text cannot be broken at an offset. -/
inductive InsertionError where
  | outOfBounds (offset length : Nat)
  | insideCharacter (offset : Nat)
  deriving DecidableEq, Repr

/-- The text that reports an insertion error. -/
def InsertionError.message : InsertionError → String
  | outOfBounds offset length =>
    "insertion offset " ++ toString offset ++ " is past the end of the source (" ++
      toString length ++ " bytes)"
  | insideCharacter offset =>
    "insertion offset " ++ toString offset ++ " does not fall on a UTF-8 character boundary"

/-- The end of a line in a text: a carriage return and a line feed if the text has that anywhere. -/
def lineEnd (text : List Char) : List Char :=
  if hasCarriageReturnLineFeed text then ['\r', '\n'] else ['\n']

/-- The lines of a text, each that is not empty behind an indentation, put together again. -/
def reindent (text indent newline : List Char) : List Char :=
  joinWith newline ((lines text).map fun line => if line.isEmpty then [] else indent ++ line)

/-- Whether an empty line is due behind this text: it has a sign that is no blank, and the last
such sign is not an opening brace. -/
def needsGap (before : List Char) : Bool :=
  match before.reverse.dropWhile isBlank with
  | [] => false
  | c :: _ => c ≠ '\x7b'

/-- The spaces and tabs at the front. -/
def indentation (text : List Char) : List Char :=
  text.takeWhile isIndentChar

/-- Drop the spaces and tabs at the back. -/
def trimIndentation (text : List Char) : List Char :=
  (text.reverse.dropWhile isIndentChar).reverse

/-- Insert a member between two parts of a text, whose line ends are `newline`. -/
def insertBetween (before after member unit newline : List Char) : List Char :=
  let lineFront := lastLine before
  let indent := indentation (lineFront ++ after)
  let block := reindent member (indent ++ unit) newline
  if allBlank lineFront then
    let complete := beforeLastLine before
    complete ++ (if needsGap complete then newline else []) ++ block ++ newline ++
      (lineFront ++ after)
  else
    let kept := trimIndentation before
    kept ++ newline ++ (if needsGap kept then newline else []) ++ block ++ newline ++ indent ++ after

/-- Insert a member in front of a byte offset. -/
def insertChars (text : List Char) (offset : Nat) (member unit : List Char) :
    Except InsertionError (List Char) :=
  if byteLength text < offset then .error (.outOfBounds offset (byteLength text))
  else
    match cutAt? text offset with
    | none => .error (.insideCharacter offset)
    | some (before, after) => .ok (insertBetween before after member unit (lineEnd text))

/-- Insert a member into a string in front of a byte offset. -/
def insert (text : String) (offset : Nat) (member unit : String) : Except InsertionError String :=
  (insertChars text.toList offset member.toList unit.toList).map String.ofList

end RecordText.Edit
