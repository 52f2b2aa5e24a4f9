import RecordText.Command.Paint
import RecordText.Command.Workspace

/-!
# Completing files

The files are completed one after the other. A completed text is printed,
written back to its file if anything changed, or written to a directory under
the name of its file. Two files that would go to the same place there are
refused before anything is read. What was done before a failure stays.
-/

namespace RecordText.Command

open RecordText.Files

namespace Fix

/-- A file to complete, with the file that takes the completed text if it is another one. -/
structure Job where
  source : Path
  target : Option Path := none
  deriving DecidableEq, Repr

/-- The jobs that write into a directory. Every path needs a file name, and no two may have the
same one; `planned` holds the jobs before. -/
def jobsInto (directory : Path) (planned : List Job) : List Path → Except Failure (List Job)
  | [] => .ok planned.reverse
  | path :: rest =>
    match path.fileName? with
    | none => .error (.noFileName path)
    | some name =>
      let target := directory.join name
      match planned.find? fun job => job.target = some target with
      | some previous => .error (.sharedDestination previous.source path target)
      | none => jobsInto directory ({ source := path, target := some target } :: planned) rest

/-- The jobs for some paths. -/
def jobs (command : Fix) (paths : List Path) : Except Failure (List Job) :=
  match command.destination with
  | .directory directory => jobsInto directory [] paths
  | _ => .ok (paths.map fun path => { source := path })

/-- The line about a skipped class. -/
def skippedLine (coloured : Bool) (path : Path) (skipped : String × String) : String :=
  paint coloured .yellow "skipped" ++ " " ++ path.text ++ " " ++ skipped.1 ++ ": " ++ skipped.2

/-- The line about a completed file. -/
def doneLine (coloured : Bool) (path : Path) (completion : Edit.Completion) : String :=
  paint coloured .green "done" ++ " " ++ path.text ++ " (" ++
    toString completion.completed.length ++ " fixed)"

/-- Put a completed text where the command wants it. -/
def store (command : Fix) (job : Job) (completion : Edit.Completion) (workspace : Workspace) :
    Workspace × Option Failure :=
  if command.destination = .inPlace then
    if completion.changed then workspace.write job.source completion.text else (workspace, none)
  else workspace.deliver job.target completion.text

/-- Complete one file. -/
def runJob (command : Fix) (coloured : Bool) (job : Job) (workspace : Workspace) :
    Workspace × Option Failure :=
  match readSource workspace.files job.source with
  | .error failure => (workspace, some failure)
  | .ok source =>
    match Edit.complete source command.style with
    | .error error => (workspace, some (.cannotComplete job.source error))
    | .ok completion =>
      let workspace := completion.skipped.foldl
        (fun workspace skipped => workspace.report (skippedLine coloured job.source skipped))
        workspace
      match command.store job completion workspace with
      | (workspace, some failure) => (workspace, some failure)
      | (workspace, none) => (workspace.report (doneLine coloured job.source completion), none)

/-- Complete files one after the other. -/
def runJobs (command : Fix) (coloured : Bool) (workspace : Workspace) :
    List Job → Workspace × Option Failure
  | [] => (workspace, none)
  | job :: rest =>
    match command.runJob coloured job workspace with
    | (workspace, some failure) => (workspace, some failure)
    | (workspace, none) => command.runJobs coloured workspace rest

/-- Carry the command out. -/
def run (command : Fix) (coloured : Bool) (workspace : Workspace) : Workspace × Option Failure :=
  match resolve workspace.files command.inputs with
  | .error failure => (workspace, some failure)
  | .ok paths =>
    match command.jobs paths with
    | .error failure => (workspace, some failure)
    | .ok jobs => command.runJobs coloured workspace jobs

end Fix

end RecordText.Command
