import RecordText.Text.Slashes

/-!
# Paths

A path is written as names with slashes between them. A path that starts with a
slash is absolute. Empty names and points inside a path say nothing, so paths
are compared and taken apart by their parts, in which these are left out; a
point in front is kept.

## Main definitions

* `Path.parts` lists what a path says.
* `Path.fileName?` and `Path.parent?` take a path apart at its last part.
* `Path.join` goes one name further.
* `Path.compare` orders paths part by part.
-/

namespace RecordText.Files

open RecordText.Text

/-- A path, as it is written. -/
structure Path where
  text : String
  deriving DecidableEq, Repr, Inhabited

/-- What one part of a path says. -/
inductive Part where
  | root
  | here
  | up
  | name (text : String)
  deriving DecidableEq, Repr

/-- The place of a part's kind in the order of parts. -/
def Part.rank : Part → Nat
  | root => 0
  | here => 1
  | up => 2
  | name _ => 3

/-- The name of a part, empty for parts that are no names. -/
def Part.word : Part → String
  | name text => text
  | _ => ""

/-- Parts are ordered by kind, and names by their characters. -/
def Part.compare (a b : Part) : Ordering :=
  (Ord.compare a.rank b.rank).then (Ord.compare a.word b.word)

/-- Lists of parts are ordered as in a dictionary. -/
def compareParts : List Part → List Part → Ordering
  | [], [] => .eq
  | [], _ :: _ => .lt
  | _ :: _, [] => .gt
  | a :: as, b :: bs => (a.compare b).then (compareParts as bs)

namespace Path

/-- Cut a path into what it starts from and the rest: a slash, a point, or nothing. -/
def cutStart : List Char → List Char × List Char
  | '/' :: body => (['/'], body)
  | ['.'] => (['.'], [])
  | '.' :: '/' :: body => (['.'], '/' :: body)
  | body => ([], body)

/-- Whether the piece between two slashes says nothing. -/
def isIdle (piece : List Char) : Bool :=
  piece = [] || piece = ['.']

/-- The part that a piece between two slashes stands for. -/
def partOf (piece : List Char) : Part :=
  if piece = ['.', '.'] then .up else .name (String.ofList piece)

/-- The part that the start of a path stands for. -/
def startParts : List Char → List Part
  | ['/'] => [.root]
  | ['.'] => [.here]
  | _ => []

/-- What a path says, part by part. -/
def parts (path : Path) : List Part :=
  let (start, body) := cutStart path.text.toList
  startParts start ++
    ((cutAtSlashes body).filter fun piece => !isIdle piece).map partOf

/-- The order of paths. -/
def compare (a b : Path) : Ordering :=
  compareParts a.parts b.parts

/-- Whether a path does not come behind another. -/
def le (a b : Path) : Bool :=
  (a.compare b).isLE

/-- The name at the end of a path, unless the path ends by going up or has no parts. -/
def fileName? (path : Path) : Option String :=
  match path.parts.getLast? with
  | some (.name text) => some text
  | _ => none

/-- Drop the pieces at the end that say nothing. -/
def dropIdleEnd (pieces : List (List Char)) : List (List Char) :=
  (pieces.reverse.dropWhile isIdle).reverse

/-- The path without its last part; the root and the empty path have none to drop. -/
def parent? (path : Path) : Option Path :=
  let (start, body) := cutStart path.text.toList
  match dropIdleEnd (cutAtSlashes body) with
  | [] => if start = ['.'] then some ⟨""⟩ else none
  | pieces => some ⟨String.ofList (start ++ joinWith ['/'] (dropIdleEnd pieces.dropLast))⟩

/-- The path of a name below a path. -/
def join (path : Path) (name : String) : Path :=
  if path.text = "" then ⟨name⟩
  else if path.text.toList.getLast? = some '/' then ⟨path.text ++ name⟩
  else ⟨path.text ++ "/" ++ name⟩

/-- A path and the paths above it, up to a number of them, from the innermost on. -/
def chain : Nat → Path → List Path
  | 0, _ => []
  | n + 1, path =>
    if path.text = "" then []
    else
      match path.parent? with
      | none => [path]
      | some above => path :: chain n above

/-- A path and all paths above it, from the innermost on. -/
def ancestors (path : Path) : List Path :=
  path.chain (path.text.length + 1)

/-- Whether a path says no more than "here". -/
def isHere (path : Path) : Bool :=
  path.parts = [.here]

/-- Whether a path starts at the root. -/
def isAbsolute (path : Path) : Bool :=
  path.text.toList.head? = some '/'

/-- Whether a path is written with a slash at its end. -/
def endsInSlash (path : Path) : Bool :=
  path.text.toList.getLast? = some '/'

/-- The names that a walk along a path follows one after the other. -/
def names (path : Path) : List String :=
  ((cutAtSlashes path.text.toList).filter fun piece => !piece.isEmpty).map String.ofList

end Path


end RecordText.Files
