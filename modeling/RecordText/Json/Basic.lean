/-!
# JSON values

A JSON value is a scalar, an array, or an object whose members keep the order
in which their keys first appeared. A number is an integer of the machine's
range or a double.
-/

namespace RecordText

/-- A JSON number. -/
inductive Json.Number where
  | int (value : Int)
  | float (value : Float)
  deriving Repr

/-- A JSON value. -/
inductive Json where
  | null
  | bool (value : Bool)
  | number (value : Json.Number)
  | string (value : String)
  | array (items : List Json)
  | object (members : List (String × Json))
  deriving Repr, Inhabited

namespace Json

/-- The JSON number of an integer. -/
def ofInt (n : Int) : Json := .number (.int n)

/-- The JSON number of a natural number. -/
def ofNat (n : Nat) : Json := .number (.int n)

/-- An encoded value, or null where there is none. -/
def ofOption {α : Type} (encode : α → Json) : Option α → Json
  | none => .null
  | some a => encode a

end Json

/-- Set a key of an association list: an existing key keeps its place, a new one goes to the end. -/
def setKey {κ α : Type} [DecidableEq κ] (members : List (κ × α)) (key : κ) (value : α) :
    List (κ × α) :=
  match members with
  | [] => [(key, value)]
  | first :: rest =>
    if first.1 = key then (key, value) :: rest else first :: setKey rest key value

/-- The value at a key of an association list. -/
def getKey? {κ α : Type} [DecidableEq κ] (members : List (κ × α)) (key : κ) : Option α :=
  match members with
  | [] => none
  | first :: rest => if first.1 = key then some first.2 else getKey? rest key

/-- Looking a key up after setting it gives the value that was set. -/
@[simp] theorem getKey?_setKey_self {κ α : Type} [DecidableEq κ] (members : List (κ × α))
    (key : κ) (value : α) : getKey? (setKey members key value) key = some value := by
  induction members with
  | nil => simp [setKey, getKey?]
  | cons first rest ih =>
      rw [setKey]
      split
      · simp [getKey?]
      · rename_i h
        simp [getKey?, h, ih]

/-- Setting a key changes no other key. -/
theorem getKey?_setKey_of_ne {κ α : Type} [DecidableEq κ] (members : List (κ × α))
    (key other : κ) (value : α) (h : other ≠ key) :
    getKey? (setKey members key value) other = getKey? members other := by
  induction members with
  | nil =>
      have hne : key ≠ other := fun e => h e.symm
      simp [setKey, getKey?, hne]
  | cons first rest ih =>
      rw [setKey]
      split
      · rename_i e
        have hkey : key ≠ other := fun e => h e.symm
        simp [getKey?, e, hkey]
      · simp [getKey?, ih]

end RecordText
