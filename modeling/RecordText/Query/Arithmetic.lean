import RecordText.Query.Value

/-!
# Arithmetic on values

Numbers are computed with as machine integers as long as the result fits, and
as doubles otherwise; a quotient is always a double. Sums join strings, arrays
and objects; null is neutral for sums. What cannot be computed is answered by
an error value.
-/

namespace RecordText.Query

/-- The operators of arithmetic. -/
inductive Arithmetic where
  | add
  | subtract
  | multiply
  | divide
  | remainder
  deriving DecidableEq, Repr

/-- The sign of an operator. -/
def Arithmetic.sign : Arithmetic → String
  | add => "+"
  | subtract => "-"
  | multiply => "*"
  | divide => "/"
  | remainder => "%"

namespace Value

/-- The error of an operation that its operands do not admit. -/
def noResult (a : Value) (op : Arithmetic) (b : Value) : Except Value Value :=
  .error (.string ("cannot calculate " ++ a.text ++ " " ++ op.sign ++ " " ++ b.text))

/-- The error of a value of the wrong kind. -/
def wrongKind {α : Type} (value : Value) (kind : String) : Except Value α :=
  .error (.string ("cannot use " ++ value.text ++ " as " ++ kind))

/-- An integer, or the double in its place if it does not fit. -/
def ofIntOr (n : Int) (x : Float) : Value :=
  if fitsInt n then .int n else .float x

/-- Compute with two numbers. -/
def onNumbers? (onInts : Int → Int → Int) (onFloats : Float → Float → Float) (a b : Value) :
    Option Value :=
  match a, b with
  | int m, int n => some (ofIntOr (onInts m n) (onFloats (Float.ofInt m) (Float.ofInt n)))
  | _, _ => do
    let x ← float? a
    let y ← float? b
    return .float (onFloats x y)

/-- Put members into an object, replacing those with the same key. -/
def setAll (members more : List (String × Value)) : List (String × Value) :=
  more.foldl (fun members member => setKey members member.1 member.2) members

/-- The sum of two values. -/
def add (a b : Value) : Except Value Value :=
  match a, b with
  | null, _ => .ok b
  | _, null => .ok a
  | string s, string t => .ok (.string (s ++ t))
  | array s, array t => .ok (.array (s ++ t))
  | object s, object t => .ok (.object (setAll s t))
  | _, _ =>
    match onNumbers? (· + ·) (· + ·) a b with
    | some sum => .ok sum
    | none => noResult a .add b

/-- The difference of two values. -/
def subtract (a b : Value) : Except Value Value :=
  match a, b with
  | array s, array t => .ok (.array (s.filter fun item => !t.any fun other => same item other))
  | _, _ =>
    match onNumbers? (· - ·) (· - ·) a b with
    | some difference => .ok difference
    | none => noResult a .subtract b

/-- Some copies of a string, or null if there are none. -/
def copies (s : String) (n : Int) : Value :=
  if 0 < n then .string (String.join (List.replicate n.toNat s)) else .null

mutual

/-- An object with the members of another merged into it, level by level. -/
def merge : Value → Value → Value
  | object s, object t => object (mergeMembers s t)
  | _, other => other

/-- Merge members into members one after the other. -/
def mergeMembers (members : List (String × Value)) :
    List (String × Value) → List (String × Value)
  | [] => members
  | (key, value) :: rest =>
    let merged := match getKey? members key with
      | some (object s) => merge (object s) value
      | _ => value
    mergeMembers (setKey members key merged) rest

end

/-- The product of two values. -/
def multiply (a b : Value) : Except Value Value :=
  match a, b with
  | string s, int n => .ok (copies s n)
  | int n, string s => .ok (copies s n)
  | object _, object _ => .ok (merge a b)
  | _, _ =>
    match onNumbers? (· * ·) (· * ·) a b with
    | some product => .ok product
    | none => noResult a .multiply b

/-- Cut a text at every occurrence of a separator, `piece` being the current piece in reverse. -/
def splitChars (separator : List Char) (skip : Nat) (piece : List Char) :
    List Char → List (List Char)
  | [] => [piece.reverse]
  | c :: rest =>
    match skip with
    | more + 1 => splitChars separator more piece rest
    | 0 =>
      if separator.isPrefixOf (c :: rest) then
        piece.reverse :: splitChars separator (separator.length - 1) [] rest
      else splitChars separator 0 (c :: piece) rest

/-- The pieces of a string between separators; an empty separator gives single characters. -/
def split (s separator : String) : List String :=
  if s.isEmpty then []
  else if separator.isEmpty then s.toList.map fun c => String.ofList [c]
  else (splitChars separator.toList 0 [] s.toList).map String.ofList

/-- The quotient of two values. -/
def divide (a b : Value) : Except Value Value :=
  match a, b with
  | string s, string t => .ok (.array ((split s t).map .string))
  | _, _ =>
    match float? a, float? b with
    | some x, some y => .ok (.float (x / y))
    | _, _ => noResult a .divide b

/-- The remainder of two integers, with the sign of the first. -/
def remainder (a b : Value) : Except Value Value :=
  match a, b with
  | int m, int n => if n = 0 then noResult a .remainder b else .ok (.int (Int.tmod m n))
  | _, _ => noResult a .remainder b

/-- Apply an operator. -/
def calculate (op : Arithmetic) (a b : Value) : Except Value Value :=
  match op with
  | .add => add a b
  | .subtract => subtract a b
  | .multiply => multiply a b
  | .divide => divide a b
  | .remainder => remainder a b

/-- The negative of a number. -/
def negate (a : Value) : Except Value Value :=
  match a with
  | int n => .ok (ofIntOr (-n) (-(Float.ofInt n)))
  | _ =>
    match float? a with
    | some x => .ok (.float (-x))
    | none => wrongKind a "number"

end Value

end RecordText.Query
