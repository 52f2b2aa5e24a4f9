import RecordText.Edit.Completion
import RecordText.Files.Path

/-!
# Commands

A command says what is to be done with which files: generate members from
descriptor documents, list the classes of C# files that lack a `ToString`
override, or add the override to them.
-/

namespace RecordText.Command

open RecordText.Files (Path)

/-- How generated lines are indented. -/
structure Indentation where
  width : Nat := 4
  tabs : Bool := false
  deriving DecidableEq, Repr

/-- The text of one level of indentation: a tab, or as many spaces as the width says. -/
def Indentation.unit (indentation : Indentation) : String :=
  if indentation.tabs then "\t" else String.ofList (List.replicate indentation.width ' ')

/-- Generate the members of all descriptors of some documents. -/
structure Generate where
  inputs : List String
  pointer : Option String := none
  query : Option String := none
  language : Language := .csharp
  indentation : Indentation := {}
  baseIndent : Nat := 0
  /-- The file to write to, where it is not the standard output. -/
  out : Option Path := none
  deriving DecidableEq, Repr

/-- How the members of a generation are written. -/
def Generate.style (command : Generate) : Style :=
  { language := command.language, indent := command.indentation.unit,
    baseIndent := command.baseIndent }

/-- List the classes without a `ToString` override. -/
structure Scan where
  inputs : List String
  /-- Whether classes that have the override are listed, too. -/
  all : Bool := false
  deriving DecidableEq, Repr

/-- Where the completed text of a file goes. -/
inductive Destination where
  | output
  | inPlace
  | directory (path : Path)
  deriving DecidableEq, Repr

/-- Add the override to classes that lack it. -/
structure Fix where
  inputs : List String
  indentation : Indentation := {}
  firstOnly : Bool := false
  destination : Destination := .output
  deriving DecidableEq, Repr

/-- How the files of a fix are completed. -/
def Fix.style (command : Fix) : Edit.CompletionStyle :=
  { indent := command.indentation.unit, firstOnly := command.firstOnly }

/-- What is to be done. -/
inductive Task where
  | generate (command : Generate)
  | scan (command : Scan)
  | fix (command : Fix)
  deriving DecidableEq, Repr

/-- A task together with whether it is only to be shown. -/
structure Invocation where
  task : Task
  dryRun : Bool := false
  deriving DecidableEq, Repr

end RecordText.Command
