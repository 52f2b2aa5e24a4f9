import RecordText.Files.Glob
import RecordText.Files.Tree

/-!
# Search by pattern

A pattern is looked for in a file tree name by name, from the working directory
or from the root. Names found below the working directory are shown without a
point in front of them. Directories are found like files. The answers come in
the order of paths.

The entries `.` and `..` are found by names that are written out, and by
patterns that start with a written point.
-/

namespace RecordText.Files

namespace FileTree

/-- The path of something below a directory; below "here" it is the names alone. -/
def pathBelow (path : Path) : List String → Path
  | [] => path
  | name :: rest => rest.foldl Path.join (if path.isHere then ⟨name⟩ else path.join name)

/-- What lies below a path, as paths with their last names. -/
def pathsBelow (tree : FileTree) (path : Path) : List (Path × List String) :=
  match tree.locate path with
  | .error _ => []
  | .ok location => (tree.descendants location).map fun names => (pathBelow path names, names)

/-- Whether a component fits the last of some names. -/
def fitsLast (component : Glob.Component) (names : List String) : Bool :=
  match names.getLast?, component with
  | some name, .literal text => name = text
  | some name, .wild tokens => Glob.matchesName tokens name.toList
  | _, _ => false

/-- The entries `.` and `..` that a pattern finds. -/
def dotEntries (tokens : List Glob.Token) : List String :=
  if tokens.head? = some (.char '.') then
    [".", ".."].filter fun name => Glob.matchesName tokens name.toList
  else []

/-- The paths that some components find from a path on.

Behind a component that stands for any directories, the next one is held against the last names of
all that lies below; at the end such a component finds all directories below. -/
def search (tree : FileTree) : List Glob.Component → Path → List Path
  | [], path => [path]
  | .literal name :: rest, path =>
    let next : Path := if path.isHere then ⟨name⟩ else path.join name
    let found := if name = "." || name = ".." then tree.isDirectory path else tree.contains next
    if found then tree.search rest next else []
  | .wild tokens :: rest, path =>
    if tree.isDirectory path then
      let inside := (tree.pathsBelow path).filter fun below =>
        below.2.length = 1 && fitsLast (.wild tokens) below.2
      (inside.map Prod.fst ++ (dotEntries tokens).map path.join).flatMap fun next =>
        tree.search rest next
    else []
  | [.directories], path =>
    if tree.isDirectory path then
      ((tree.pathsBelow path).map Prod.fst).filter tree.isDirectory
    else []
  | .directories :: .directories :: rest, path => tree.search (.directories :: rest) path
  | .directories :: component :: rest, path =>
    if tree.isDirectory path then
      let fitting := (tree.pathsBelow path).filter fun below => fitsLast component below.2
      (fitting.map Prod.fst).flatMap fun next => tree.search rest next
    else []

/-- All paths that a pattern finds, in the order of paths. -/
def glob (tree : FileTree) (pattern : String) : Except Glob.Malformed (List Path) := do
  let query ← Glob.Query.parse pattern.toList
  if query.components.isEmpty then return []
  let found := tree.search query.components ⟨query.start⟩
  let wanted := if query.directoriesOnly then found.filter tree.isDirectory else found
  return wanted.mergeSort Path.le

end FileTree

end RecordText.Files
