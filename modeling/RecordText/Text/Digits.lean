/-!
# Decimal digits

A natural number is written with the ten ASCII digits. Other digits of the
world's scripts are not read.
-/

namespace RecordText.Text

/-- Go on reading decimal digits behind a number. -/
def decimalOnto (n : Nat) : List Char → Option Nat
  | [] => some n
  | c :: rest => if c.isDigit then decimalOnto (n * 10 + (c.toNat - '0'.toNat)) rest else none

/-- The number that decimal digits stand for; there has to be a digit, and nothing else. -/
def decimal? : List Char → Option Nat
  | [] => none
  | digits => decimalOnto 0 digits

end RecordText.Text
