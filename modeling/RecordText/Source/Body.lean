import RecordText.Text.Offset

/-!
# Class bodies

A body starts at the first opening brace behind a header, unless a semicolon or
a closing brace comes first, and ends at the brace that closes it. At its top
level it is cut into segments: a segment ends at a semicolon or at the opening
brace of a block, and the next one starts behind the semicolon or behind the
closing brace of the block.
-/

namespace RecordText.Source

open RecordText.Text

/-- What ends a segment. -/
inductive Terminator where
  | brace
  | semicolon
  deriving DecidableEq, Repr

/-- A piece of a body at its top level, with what ends it. -/
structure Segment where
  text : List Char
  terminator : Terminator
  deriving DecidableEq, Repr

/-- A class body: its segments, and the byte offset of its closing brace if it has one. -/
structure Body where
  segments : List Segment := []
  close : Option Nat := none
  deriving DecidableEq, Repr

/-- A body with one more segment in front. -/
def Body.cons (segment : Segment) (body : Body) : Body :=
  { body with segments := segment :: body.segments }

/-- Find the opening brace behind a header: its byte offset and the text behind it. -/
def findOpen? (offset : Nat) : List Char → Option (Nat × List Char)
  | [] => none
  | c :: rest =>
    if c = '\x7b' then some (offset, rest)
    else if c = ';' ∨ c = '\x7d' then none
    else findOpen? (offset + c.utf8Size) rest

/-- Walk a body at a given depth of inner blocks, `segment` being the current segment in reverse
and `offset` the byte offset of the text. -/
def walk (depth : Nat) (segment : List Char) (offset : Nat) : List Char → Body
  | [] => {}
  | c :: rest =>
    match depth with
    | 0 =>
      if c = '\x7b' then
        (walk 1 [] (offset + c.utf8Size) rest).cons
          { text := segment.reverse, terminator := .brace }
      else if c = '\x7d' then { close := some offset }
      else if c = ';' then
        (walk 0 [] (offset + c.utf8Size) rest).cons
          { text := segment.reverse, terminator := .semicolon }
      else walk 0 (c :: segment) (offset + c.utf8Size) rest
    | inner + 1 =>
      if c = '\x7b' then walk (inner + 2) [] (offset + c.utf8Size) rest
      else if c = '\x7d' then walk inner [] (offset + c.utf8Size) rest
      else walk (inner + 1) [] (offset + c.utf8Size) rest

end RecordText.Source
