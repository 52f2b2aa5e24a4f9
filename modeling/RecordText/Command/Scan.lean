import RecordText.Command.Paint
import RecordText.Command.Workspace

/-!
# Listing classes

For every class without a `ToString` override a line gives the file, the line
of the header, the name and the number of properties. On request the classes
that have the override are listed, too. What was printed before a file that
cannot be read stays.
-/

namespace RecordText.Command

open RecordText.Files RecordText.Source

namespace Scan

/-- The number of the line in which a byte offset lies, counted from one. -/
def lineNumber (text : String) (offset : Nat) : Nat :=
  match Text.cutAt? text.toList offset with
  | some (before, _) => Text.lineFeeds before + 1
  | none => Text.lineFeeds text.toList + 1

/-- The line about a class, if it gets one. -/
def classLine? (command : Scan) (coloured : Bool) (path : Path) (text : String)
    (found : ClassOutline) : Option String :=
  let place := path.text ++ ":" ++ toString (lineNumber text found.keywordOffset)
  if found.hasToString then
    if command.all then
      some (paint coloured .green "ok" ++ " " ++ place ++ " " ++ found.name ++
        " overrides ToString\n")
    else none
  else
    some (paint coloured .boldYellow "missing" ++ " " ++ place ++ " " ++
      paint coloured .bold found.name ++ " has no ToString override (" ++
      toString found.properties.length ++ " properties)\n")

/-- The lines about the classes of a file. -/
def fileLines (command : Scan) (coloured : Bool) (path : Path) (text : String) : String :=
  String.join ((outline text).filterMap (command.classLine? coloured path text))

/-- List the classes of some files. -/
def runFiles (command : Scan) (coloured : Bool) (workspace : Workspace) :
    List Path → Workspace × Option Failure
  | [] => (workspace, none)
  | path :: rest =>
    match readSource workspace.files path with
    | .error failure => (workspace, some failure)
    | .ok text =>
      command.runFiles coloured (workspace.print (command.fileLines coloured path text)) rest

/-- Carry the command out. -/
def run (command : Scan) (coloured : Bool) (workspace : Workspace) : Workspace × Option Failure :=
  match resolve workspace.files command.inputs with
  | .error failure => (workspace, some failure)
  | .ok paths => command.runFiles coloured workspace paths

end Scan

end RecordText.Command
