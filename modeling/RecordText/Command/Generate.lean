import RecordText.Command.Workspace
import RecordText.Json.Parser
import RecordText.Json.Pointer

/-!
# Generating members

The documents of all files are read before any member is generated, and all
members are generated before any text is written. One fault anywhere leaves no
output at all. The members stand in the order of their descriptors with an
empty line between neighbours.
-/

namespace RecordText.Command

open RecordText.Files

namespace Generate

/-- The part of a file's value that the command's pointer names. -/
def select (command : Generate) (path : Path) (value : Json) : Except Failure Json :=
  match command.pointer with
  | none => .ok value
  | some pointer =>
    match value.pointer? pointer with
    | none => .error (.pointsNowhere pointer path)
    | some node => .ok node

/-- The documents that the command's query makes of a value. -/
def documents (command : Generate) (path : Path) (value : Json) : Except Failure (List Json) :=
  match command.query with
  | none => .ok [value]
  | some query => (Query.run query value).mapError fun failure => .queryFailed path failure

/-- The descriptors of documents, which are counted from an index on. -/
def readDocuments (path : Path) (index : Nat) : List Json → Except Failure (List Descriptor)
  | [] => .ok []
  | document :: rest => do
    let first ← (Document.read document).mapError fun failure => .badDocument path index failure
    return first ++ (← readDocuments path (index + 1) rest)

/-- The descriptors of one file. -/
def load (command : Generate) (files : FileTree) (path : Path) :
    Except Failure (List Descriptor) := do
  let source ← readSource files path
  let value ← match Json.parse? source with
    | none => .error (.notJson path)
    | some value => .ok value
  let node ← command.select path value
  readDocuments path 0 (← command.documents path node)

/-- The descriptors of some files, one file after the other. -/
def loadAll (command : Generate) (files : FileTree) : List Path → Except Failure (List Descriptor)
  | [] => .ok []
  | path :: rest => do
    let first ← command.load files path
    return first ++ (← command.loadAll files rest)

/-- The members of some descriptors, or the report of the first that is not valid. -/
def members (style : Style) : List Descriptor → Except Failure (List Member)
  | [] => .ok []
  | descriptor :: rest => do
    let first ← (descriptor.generate style).mapError .invalidDescriptor
    return first :: (← members style rest)

/-- Members with an empty line between neighbours and a line feed at the end. -/
def layOut (members : List Member) : String :=
  String.intercalate "\n\n" (members.map Member.text) ++ "\n"

/-- The text that the command comes to. -/
def text (command : Generate) (files : FileTree) : Except Failure String := do
  let paths ← resolve files command.inputs
  let descriptors ← command.loadAll files paths
  return layOut (← members command.style descriptors)

/-- Carry the command out. -/
def run (command : Generate) (workspace : Workspace) : Workspace × Option Failure :=
  match command.text workspace.files with
  | .error failure => (workspace, some failure)
  | .ok text => workspace.deliver command.out text

end Generate

end RecordText.Command
