import RecordText.Command.Run

/-!
# The program

The program takes up the files below the working directory, and those that its
arguments name elsewhere, as a file tree, carries the command line out on the
tree, and then writes what has changed.

## Implementation notes

Links to directories are not followed, so that the taking up of files ends. A
file that cannot be read is left out and counts as missing.
-/

namespace RecordText.Program

open RecordText.Files RecordText.Command

/-- The content of a file. -/
def readContent (path : String) : IO Content := do
  let bytes ← IO.FS.readBinFile path
  return match String.fromUTF8? bytes with
    | some text => .text text
    | none => .binary bytes.toList

/-- The entry of a file, if it can be read. -/
def readFile? (path : String) (location : Location) : IO (Option (Location × Entry)) := do
  try return some (location, .file (← readContent path))
  catch _ => return none

/-- All that lies in a directory. -/
partial def readDirectory (path : String) (location : Location) :
    IO (List (Location × Entry)) := do
  let mut found := []
  for item in ← ((← IO.currentDir) / path).readDir do
    let inner := path ++ "/" ++ item.fileName
    let place := location ++ [item.fileName]
    if (← item.path.symlinkMetadata).type == .dir then
      found := (place, .directory) :: (← readDirectory inner place) ++ found
    else if !(← item.path.isDir) then
      found := (← readFile? inner place).toList ++ found
  return found

/-- The location of something that exists. -/
def locationOf (path : String) : IO Location := do
  return (← IO.FS.realPath path).components.filter (· ≠ "")

/-- The directories on the way to a location, itself included. -/
def directoriesTo (location : Location) : List (Location × Entry) :=
  (List.range location.length).map fun n => (location.take (n + 1), .directory)

/-- The file that an argument names, with the directories on the way to it. -/
def readNamed (argument : String) : IO (List (Location × Entry)) := do
  try
    let location ← locationOf argument
    match ← readFile? argument location with
    | none => return directoriesTo location
    | some file => return directoriesTo location.dropLast ++ [file]
  catch _ => return []

/-- The file tree on which a command line works. -/
def takeUp (arguments : List String) : IO FileTree := do
  let working ← locationOf "."
  let below := directoriesTo working ++ (← readDirectory "." working)
  let mut tree : FileTree := { entries := below, working }
  for argument in arguments do
    for (location, entry) in ← readNamed argument do
      if (tree.get? location).isNone then tree := tree.put location entry
  return tree

/-- Carry a change out. -/
def writeChange (change : Location × Entry) : IO Unit := do
  let path := "/" ++ String.intercalate "/" change.1
  match change.2 with
  | .directory => IO.FS.createDirAll path
  | .file (.text text) => IO.FS.writeFile path text
  | .file (.binary bytes) => IO.FS.writeBinFile path (ByteArray.mk bytes.toArray)

end RecordText.Program

open RecordText in
/-- Carry out the command line given by the arguments. -/
def main (arguments : List String) : IO UInt32 := do
  match Command.Invocation.read arguments with
  | .error fault =>
    IO.print fault.printed
    IO.eprintln fault.message
    return fault.exitCode
  | .ok invocation =>
    let files ← Program.takeUp arguments
    let coloured ← (← IO.getStdout).isTty
    let (workspace, failure) := invocation.run coloured files
    for change in Files.FileTree.changes files workspace.files do
      Program.writeChange change
    IO.print workspace.printed
    IO.eprint workspace.reported
    match failure with
    | none => pure ()
    | some failure => IO.eprintln failure.report
    return Command.exitCode failure
