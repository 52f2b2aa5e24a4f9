/-!
# Coloured words

On a terminal some words of the printed and reported lines are coloured. A
coloured word stands between the sequence that switches its look on and the one
that switches it off.
-/

namespace RecordText.Command

/-- How a word looks. -/
inductive Look where
  | green
  | yellow
  | bold
  | boldYellow
  deriving DecidableEq, Repr

/-- The numbers that stand for a look. -/
def Look.code : Look → String
  | green => "32"
  | yellow => "33"
  | bold => "1"
  | boldYellow => "1;33"

/-- A word with its look, or the plain word where there are no colours. -/
def paint (coloured : Bool) (look : Look) (word : String) : String :=
  if coloured then "\x1b[" ++ look.code ++ "m" ++ word ++ "\x1b[0m" else word

end RecordText.Command
