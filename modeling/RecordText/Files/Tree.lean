import RecordText.Files.Path
import RecordText.Json.Basic

/-!
# File trees

A file tree holds files and directories at locations, which are the names that
lead to them from the root; the root is always a directory. There are no links.
Paths are followed from the root or from a working directory: every name but
the last has to lead to a directory.

A write replaces the whole content of a file and creates the file where there
is none. Missing directories are made on request, from the outermost on.

## Implementation notes

The tree is a list of locations with their entries. A lookup by path looks at
all directories on the way, so an entry below a location that holds no
directory is out of reach.
-/

namespace RecordText.Files

/-- The names that lead to an entry from the root. -/
abbrev Location := List String

/-- The content of a file: text, or bytes that are not the UTF-8 form of any text. -/
inductive Content where
  | text (value : String)
  | binary (bytes : List UInt8)
  deriving DecidableEq, Repr

/-- What stands at a location. -/
inductive Entry where
  | file (content : Content)
  | directory
  deriving DecidableEq, Repr

/-- Why an operation on files fails. -/
inductive FileError where
  | missing
  | present
  | notDirectory
  | isDirectory
  | notText
  deriving DecidableEq, Repr

/-- The words for a failed operation. -/
def FileError.message : FileError → String
  | missing => "No such file or directory (os error 2)"
  | present => "File exists (os error 17)"
  | notDirectory => "Not a directory (os error 20)"
  | isDirectory => "Is a directory (os error 21)"
  | notText => "stream did not contain valid UTF-8"

/-- Files and directories, with the directory at which relative paths start. -/
structure FileTree where
  entries : List (Location × Entry) := []
  working : Location := []
  deriving DecidableEq, Repr

namespace FileTree

/-- What stands at a location. -/
def get? (tree : FileTree) : Location → Option Entry
  | [] => some .directory
  | location => getKey? tree.entries location

/-- Put an entry at a location. -/
def put (tree : FileTree) (location : Location) (entry : Entry) : FileTree :=
  { tree with entries := setKey tree.entries location entry }

/-- What was put at a location stands there. -/
@[simp] theorem get?_put_self (tree : FileTree) (location : Location) (entry : Entry)
    (h : location ≠ []) : (tree.put location entry).get? location = some entry := by
  cases location with
  | nil => exact absurd rfl h
  | cons name rest => simp [get?, put]

/-- Putting an entry at a location changes no other location. -/
theorem get?_put_of_ne (tree : FileTree) (location other : Location) (entry : Entry)
    (h : other ≠ location) : (tree.put location entry).get? other = tree.get? other := by
  cases other with
  | nil => rfl
  | cons name rest => exact getKey?_setKey_of_ne tree.entries location (name :: rest) entry h

/-- Go from a directory to where a name leads; nothing need stand there. -/
def step (tree : FileTree) (location : Location) (name : String) : Except FileError Location :=
  match tree.get? location with
  | none => .error .missing
  | some (.file _) => .error .notDirectory
  | some .directory =>
    if name = "." then .ok location
    else if name = ".." then .ok location.dropLast
    else .ok (location ++ [name])

/-- Follow names one after the other. -/
def walk (tree : FileTree) (location : Location) : List String → Except FileError Location
  | [] => .ok location
  | name :: rest =>
    match tree.step location name with
    | .error error => .error error
    | .ok next => tree.walk next rest

/-- The location at which a path starts. -/
def start (tree : FileTree) (path : Path) : Location :=
  if path.isAbsolute then [] else tree.working

/-- The location to which a path leads; the empty path leads nowhere. -/
def locate (tree : FileTree) (path : Path) : Except FileError Location :=
  if path.text = "" then .error .missing else tree.walk (tree.start path) path.names

/-- The entry to which a path leads; only a directory may be written with a slash behind it. -/
def find (tree : FileTree) (path : Path) : Except FileError Entry :=
  match tree.locate path with
  | .error error => .error error
  | .ok location =>
    match tree.get? location with
    | none => .error .missing
    | some .directory => .ok .directory
    | some (.file content) =>
      if path.endsInSlash then .error .notDirectory else .ok (.file content)

/-- Whether a path leads to something. -/
def contains (tree : FileTree) (path : Path) : Bool :=
  (tree.find path).isOk

/-- Whether a path leads to a directory. -/
def isDirectory (tree : FileTree) (path : Path) : Bool :=
  match tree.find path with
  | .ok .directory => true
  | _ => false

/-- Read the text of a file. -/
def readText (tree : FileTree) (path : Path) : Except FileError String :=
  match tree.find path with
  | .error error => .error error
  | .ok .directory => .error .isDirectory
  | .ok (.file (.binary _)) => .error .notText
  | .ok (.file (.text value)) => .ok value

/-- Replace the content of a file or create it. -/
def write (tree : FileTree) (path : Path) (content : Content) : Except FileError FileTree :=
  match tree.locate path with
  | .error error => .error error
  | .ok location =>
    if path.endsInSlash || tree.get? location = some .directory then .error .isDirectory
    else .ok (tree.put location (.file content))

/-- Make one directory in an existing one. -/
def makeDirectory (tree : FileTree) (path : Path) : Except FileError FileTree :=
  match tree.locate path with
  | .error error => .error error
  | .ok location =>
    if (tree.get? location).isSome then .error .present
    else .ok (tree.put location .directory)

/-- Make the first of some directories, which lie in each other from the innermost on, together
with those of the others that are missing. What was made before a failure stays. -/
def makeChain (tree : FileTree) : List Path → FileTree × Option FileError
  | [] => (tree, none)
  | path :: outer =>
    match tree.makeDirectory path with
    | .ok made => (made, none)
    | .error .missing =>
      match tree.makeChain outer with
      | (made, some error) => (made, some error)
      | (made, none) =>
        match made.makeDirectory path with
        | .ok made => (made, none)
        | .error error => if made.isDirectory path then (made, none) else (made, some error)
    | .error error => if tree.isDirectory path then (tree, none) else (tree, some error)

/-- Make a directory together with the missing ones above it. -/
def makeDirectories (tree : FileTree) (path : Path) : FileTree × Option FileError :=
  tree.makeChain path.ancestors

/-- The names that lead from a location to one below it. -/
def below? : Location → Location → Option (List String)
  | [], names => some names
  | _ :: _, [] => none
  | a :: as, b :: bs => if a = b then below? as bs else none

/-- What lies below a location, by the names that lead there from it. -/
def descendants (tree : FileTree) (location : Location) : List (List String) :=
  tree.entries.filterMap fun entry =>
    match below? location entry.1 with
    | some (name :: more) => some (name :: more)
    | _ => none

/-- The entries of a tree that another tree did not hold in the same way. -/
def changes (before after : FileTree) : List (Location × Entry) :=
  after.entries.filter fun entry => before.get? entry.1 != some entry.2

end FileTree

end RecordText.Files
