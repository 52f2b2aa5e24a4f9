import RecordText.Command.Fix
import RecordText.Command.Generate
import RecordText.Command.Listing
import RecordText.Command.Scan
import RecordText.Command.Usage

/-!
# Carrying out command lines

A command line is read and its task carried out on the files of a workspace; a
dry run only reports the listing of the invocation. The exit code is 0 for
success, for help and for the version, 1 for a command that failed, and 2 for
arguments that make no command.
-/

namespace RecordText.Command

open RecordText.Files

/-- Carry an invocation out. -/
def Invocation.run (invocation : Invocation) (coloured : Bool) (files : FileTree) :
    Workspace × Option Failure :=
  if invocation.dryRun then ({ files, reported := invocation.listing }, none)
  else
    match invocation.task with
    | .generate command => command.run { files }
    | .scan command => command.run coloured { files }
    | .fix command => command.run coloured { files }

/-- Carry a command line out. -/
def run (coloured : Bool) (arguments : List String) (files : FileTree) :
    Except UsageFault (Workspace × Option Failure) :=
  match Invocation.read arguments with
  | .error fault => .error fault
  | .ok invocation => .ok (invocation.run coloured files)

/-- The name and version of the program. -/
def versionText : String := "describe-gen 0.1.0\n"

/-- How the program is called. -/
def usageText : String :=
  "describe-gen generate -i FILE... [--json-pointer P] [--jq-expr F] [--target L] [--indent N] " ++
  "[--tabs] [--base-indent N] [-o FILE]\n" ++
  "describe-gen scan -i FILE... [--all]\n" ++
  "describe-gen fix -i FILE... [--indent N] [--tabs] [--first-only] [--in-place | -o DIRECTORY]"

/-- What is printed when there is no command to carry out. -/
def UsageFault.printed : UsageFault → String
  | version => versionText
  | _ => ""

/-- What is reported when there is no command to carry out. -/
def UsageFault.message : UsageFault → String
  | missingInput => "an input is required: -i FILE"
  | unknownArgument => "unexpected argument"
  | unknownCommand => "unknown command; there are generate, scan, fix and help"
  | badValue => "an option lacks a value or has one that is not allowed"
  | badNumber => "a number is expected"
  | surplusValue => "an option that takes no value has one"
  | conflict => "an option is repeated or excluded by another one"
  | help => usageText
  | helpForNothing => usageText
  | version => ""

/-- The exit code when there is no command to carry out. -/
def UsageFault.exitCode : UsageFault → UInt32
  | help => 0
  | version => 0
  | _ => 2

/-- The text that reports a failure, its causes on lines of their own. -/
def Failure.report (failure : Failure) : String :=
  match failure.chain with
  | [] => ""
  | [message] => "Error: " ++ message
  | message :: causes =>
    "Error: " ++ message ++ "\n\nCaused by:" ++
      String.join (causes.map fun cause => "\n    " ++ cause)

/-- The exit code of a command that was carried out. -/
def exitCode : Option Failure → UInt32
  | none => 0
  | some _ => 1

end RecordText.Command
