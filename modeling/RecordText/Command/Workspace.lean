import RecordText.Command.Settings
import RecordText.Descriptor.Document
import RecordText.Files.Search
import RecordText.Query.Run

/-!
# Workspaces

Commands read and write the files of a workspace, print text on its output and
report on their progress beside it. A command that fails leaves what it did
before the failure.
-/

namespace RecordText.Command

open RecordText.Files

/-- Why a command fails. -/
inductive Failure where
  | malformedPattern (malformed : Glob.Malformed)
  | nothingFound (pattern : String)
  | unreadable (path : Path) (error : FileError)
  | notJson (path : Path)
  | pointsNowhere (pointer : String) (path : Path)
  | queryFailed (path : Path) (failure : Query.Failure)
  | badDocument (path : Path) (index : Nat) (failure : Document.Failure)
  | invalidDescriptor (report : InvalidDescriptor)
  | cannotComplete (path : Path) (error : Edit.InsertionError)
  | noFileName (path : Path)
  | sharedDestination (first second destination : Path)
  | cannotCreate (path : Path) (error : FileError)
  | cannotWrite (path : Path) (error : FileError)
  deriving Repr

/-- The messages that report a failure, from what was tried to what was in the way. -/
def Failure.chain : Failure → List String
  | malformedPattern malformed => ["failed to resolve input file paths", malformed.message]
  | nothingFound pattern =>
    ["failed to resolve input file paths", "glob pattern matched no files: " ++ pattern]
  | unreadable path error =>
    ["failed to read source file (" ++ path.text ++ ")", error.message]
  | notJson path => ["failed to parse JSON source file (" ++ path.text ++ ")", "json syntax"]
  | pointsNowhere pointer path =>
    ["JSON pointer " ++ pointer ++ " matched nothing in " ++ path.text]
  | queryFailed path failure =>
    ["failed to apply jq expression to source file (" ++ path.text ++ ")", failure.message]
  | badDocument path index failure =>
    ["invalid type descriptor in " ++ path.text ++ " (document " ++ toString index ++ "): " ++
      failure.message]
  | invalidDescriptor report => [report.message]
  | cannotComplete path error => ["failed to fix " ++ path.text, error.message]
  | noFileName path => ["input path has no file name (" ++ path.text ++ ")"]
  | sharedDestination first second destination =>
    [first.text ++ " and " ++ second.text ++ " would both be written to " ++ destination.text]
  | cannotCreate path error => ["failed to create " ++ path.text, error.message]
  | cannotWrite path error => ["failed to write " ++ path.text, error.message]

/-- The files that commands work on, and what they have printed and reported. -/
structure Workspace where
  files : FileTree
  printed : String := ""
  reported : String := ""
  deriving DecidableEq, Repr

namespace Workspace

/-- Print a text. -/
def print (workspace : Workspace) (text : String) : Workspace :=
  { workspace with printed := workspace.printed ++ text }

/-- Report a line. -/
def report (workspace : Workspace) (line : String) : Workspace :=
  { workspace with reported := workspace.reported ++ line ++ "\n" }

/-- Write a text to a file. -/
def write (workspace : Workspace) (path : Path) (text : String) : Workspace × Option Failure :=
  match workspace.files.write path (.text text) with
  | .error error => (workspace, some (.cannotWrite path error))
  | .ok files => ({ workspace with files }, none)

/-- Make the directory in which a path lies, with those above it. -/
def makeParent (workspace : Workspace) (path : Path) : Workspace × Option Failure :=
  match path.parent? with
  | none => (workspace, none)
  | some directory =>
    match workspace.files.makeDirectories directory with
    | (files, none) => ({ workspace with files }, none)
    | (files, some error) => ({ workspace with files }, some (.cannotCreate directory error))

/-- Write a text to a file whose directory is made if it is missing, or print it if there is no
such file. -/
def deliver (workspace : Workspace) (out : Option Path) (text : String) :
    Workspace × Option Failure :=
  match out with
  | none => (workspace.print text, none)
  | some path =>
    match workspace.makeParent path with
    | (workspace, some failure) => (workspace, some failure)
    | (workspace, none) => workspace.write path text

end Workspace

/-- The paths that some inputs stand for: a pattern stands for the paths that it finds, of which
there has to be one, and any other input for itself. -/
def resolve (files : FileTree) : List String → Except Failure (List Path)
  | [] => .ok []
  | input :: rest => do
    let first ← if Glob.isPattern input then
        match files.glob input with
        | .error malformed => .error (.malformedPattern malformed)
        | .ok [] => .error (.nothingFound input)
        | .ok paths => .ok paths
      else .ok [⟨input⟩]
    return first ++ (← resolve files rest)

/-- Read the text of a file. -/
def readSource (files : FileTree) (path : Path) : Except Failure String :=
  (files.readText path).mapError fun error => .unreadable path error

end RecordText.Command
