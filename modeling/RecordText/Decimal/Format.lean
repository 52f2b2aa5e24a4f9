import RecordText.Decimal.Shortest

/-!
# Written doubles

A double is written with its shortest decimal. A format says which magnitudes
are written with a decimal point in place and which with an exponent; whole
numbers written in place always show one zero after the point.
-/

namespace RecordText.Decimal

/-- The range of point positions that are written in place; no bound means no limit. -/
structure Format where
  lowest : Option Int
  highest : Option Int
  deriving Repr

/-- Whether the format writes a number with this point position in place. -/
def Format.inPlace (format : Format) (point : Int) : Bool :=
  (format.lowest.all fun low => low < point) && (format.highest.all fun high => point ≤ high)

/-- The digits of a number. -/
def digitChars (n : Nat) : List Char :=
  Nat.toDigits 10 n

/-- The digits of an integer, with its sign if it is negative. -/
def intChars (n : Int) : List Char :=
  match n with
  | .ofNat m => digitChars m
  | .negSucc m => '-' :: digitChars (m + 1)

/-- Write digits with the decimal point in place. -/
def writeInPlace (digits : List Char) (point : Int) : List Char :=
  if point ≤ 0 then
    ['0', '.'] ++ List.replicate (-point).toNat '0' ++ digits
  else if (digits.length : Int) ≤ point then
    digits ++ List.replicate (point.toNat - digits.length) '0' ++ ['.', '0']
  else
    digits.take point.toNat ++ ['.'] ++ digits.drop point.toNat

/-- Write digits with one of them before the point and an exponent. -/
def writeWithExponent (digits : List Char) (point : Int) : List Char :=
  let fraction := digits.drop 1
  digits.take 1 ++ (if fraction.isEmpty then [] else '.' :: fraction) ++ ['e'] ++
    intChars (point - 1)

/-- Write a finite decimal magnitude. -/
def Format.write (format : Format) (scaled : Scaled) : List Char :=
  if scaled.digits = 0 then ['0', '.', '0']
  else
    let digits := digitChars scaled.digits
    let point := (digits.length : Int) + scaled.exponent
    if format.inPlace point then writeInPlace digits point
    else writeWithExponent digits point

/-- The text of a finite double. -/
def Format.writeFloat (format : Format) (x : Float) : String :=
  let bits := x.toBits.toNat
  let magnitude := format.write (Binary.ofBits bits).shortest
  String.ofList (if 0x8000000000000000 ≤ bits then '-' :: magnitude else magnitude)

/-- Every magnitude is written in place. -/
def Format.positional : Format := { lowest := none, highest := none }

end RecordText.Decimal
