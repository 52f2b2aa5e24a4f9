/-!
# Indented lines

Text is laid out by steps: a step writes one line, or it writes an opening
line, then steps one level deeper, then a closing line. An emitter carries the
text written so far and the current depth. The lines of steps can also be
listed directly, each with its depth; both views give the same text.

## Implementation notes

An empty line carries no indentation. The emitter ends every line with a line
feed, and the finished text drops exactly one of them.
-/

namespace RecordText

/-- What is laid out: single lines and blocks. -/
inductive Step where
  | line (text : String)
  | block (opening closing : String) (body : List Step)
  deriving Inhabited, Repr

/-- A text under construction, with its indentation unit and current depth. -/
structure Emitter where
  written : List Char := []
  unit : List Char := [' ', ' ', ' ', ' ']
  depth : Nat := 0
  deriving DecidableEq, Repr

/-- Some copies of a text, one after the other. -/
def copies (n : Nat) (text : List Char) : List Char :=
  (List.replicate n text).flatten

/-- One line at a given depth, without its end. -/
def indentLine (unit : List Char) (depth : Nat) (text : List Char) : List Char :=
  if text.isEmpty then [] else copies depth unit ++ text

namespace Emitter

/-- Write one line at the current depth. -/
def line (emitter : Emitter) (text : String) : Emitter :=
  { emitter with
    written := emitter.written ++ indentLine emitter.unit emitter.depth text.toList ++ ['\n'] }

/-- Go one level deeper. -/
def deeper (emitter : Emitter) : Emitter :=
  { emitter with depth := emitter.depth + 1 }

/-- Come back one level. -/
def shallower (emitter : Emitter) : Emitter :=
  { emitter with depth := emitter.depth - 1 }

mutual

/-- Carry out one step. -/
def step (emitter : Emitter) : Step → Emitter
  | .line text => emitter.line text
  | .block opening closing body =>
    ((steps (emitter.line opening).deeper body).shallower).line closing

/-- Carry out steps in order. -/
def steps (emitter : Emitter) : List Step → Emitter
  | [] => emitter
  | first :: rest => steps (step emitter first) rest

end

/-- The text without its final line feed. -/
def finishChars (emitter : Emitter) : List Char :=
  match emitter.written.reverse with
  | '\n' :: rest => rest.reverse
  | _ => emitter.written

/-- The finished text. -/
def finish (emitter : Emitter) : String :=
  String.ofList emitter.finishChars

/-- The finished texts before the first step and after each step. -/
def progress (emitter : Emitter) : List Step → List String
  | [] => [emitter.finish]
  | first :: rest => emitter.finish :: progress (emitter.step first) rest

end Emitter

mutual

/-- The lines of a step, each with its depth. -/
def Step.outline (depth : Nat) : Step → List (Nat × String)
  | .line text => [(depth, text)]
  | .block opening closing body =>
    (depth, opening) :: (Step.outlineAll (depth + 1) body ++ [(depth, closing)])

/-- The lines of steps in order, each with its depth. -/
def Step.outlineAll (depth : Nat) : List Step → List (Nat × String)
  | [] => []
  | first :: rest => Step.outline depth first ++ Step.outlineAll depth rest

end

end RecordText
