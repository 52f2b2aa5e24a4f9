import RecordText.Command.Settings
import RecordText.Text.Dump

/-!
# Listings of invocations

A dry run shows the invocation as a listing: records with their fields, lists
with their items, each on lines of its own and indented below what holds it.

## Implementation notes

A listing is its lines. What is put into another listing is indented by one
level, its first line takes the name of the field and its last line a comma.
-/

namespace RecordText.Command

/-- The lines of a listing. -/
abbrev Listing := List String

namespace Listing

/-- A listing of one word. -/
def word (text : String) : Listing := [text]

/-- Put a comma behind the last line. -/
def withComma : Listing → Listing
  | [] => []
  | [line] => [line ++ ","]
  | line :: rest => line :: withComma rest

/-- Put a name in front of the first line. -/
def withName (name : String) : Listing → Listing
  | [] => []
  | line :: rest => (name ++ ": " ++ line) :: rest

/-- A listing as it stands inside another one. -/
def inside (listing : Listing) : Listing :=
  listing.withComma.map fun line => "    " ++ line

/-- A field of a record. -/
def field (name : String) (value : Listing) : Listing :=
  (value.withName name).inside

/-- A record with its fields. -/
def record (name : String) (fields : List (String × Listing)) : Listing :=
  [name ++ " \x7b"] ++ fields.flatMap (fun entry => field entry.1 entry.2) ++ ["\x7d"]

/-- A value with a label around it. -/
def wrap (label : String) (value : Listing) : Listing :=
  [label ++ "("] ++ value.inside ++ [")"]

/-- A list of values. -/
def items (values : List Listing) : Listing :=
  if values.isEmpty then ["[]"] else ["["] ++ values.flatMap inside ++ ["]"]

/-- A value that may be missing. -/
def optional : Option Listing → Listing
  | none => word "None"
  | some value => wrap "Some" value

/-- A truth value. -/
def truth (value : Bool) : Listing :=
  word (if value then "true" else "false")

/-- A number. -/
def number (value : Nat) : Listing :=
  word (toString value)

/-- A text. -/
def text (value : String) : Listing :=
  word (Text.dump value)

/-- A path, in which single quotes are escaped as well. -/
def path (value : Files.Path) : Listing :=
  word (String.ofList (('"' :: value.text.toList.flatMap fun c =>
    if c = '\'' then ['\\', c] else Text.dumpChar c) ++ ['"']))

/-- The inputs of a command. -/
def inputs (values : List String) : String × Listing :=
  ("input_settings", record "InputSettings" [("input", items (values.map text))])

/-- An indentation. -/
def indentation (value : Indentation) : String × Listing :=
  ("indent_settings",
    record "IndentSettings" [("indent", number value.width), ("tabs", truth value.tabs)])

/-- A language. -/
def language : Language → Listing
  | .csharp => word "Csharp"
  | .java => word "Java"
  | .rust => word "Rust"

/-- A task with whether it is only to be shown. -/
def task (dryRun : Bool) : Task → Listing
  | .generate command =>
    wrap "Generate" (record "GenerateOut" [
      inputs command.inputs,
      ("json_pointer", optional (command.pointer.map text)),
      ("jq_expr", optional (command.query.map text)),
      ("target", language command.language),
      indentation command.indentation,
      ("base_indent", number command.baseIndent),
      ("out", optional (command.out.map path)),
      ("no_op", truth dryRun)])
  | .scan command =>
    wrap "Scan" (record "ScanOut" [
      inputs command.inputs,
      ("all", truth command.all),
      ("no_op", truth dryRun)])
  | .fix command =>
    wrap "Fix" (record "FixOut" [
      inputs command.inputs,
      indentation command.indentation,
      ("first_only", truth command.firstOnly),
      ("in_place", truth (command.destination = .inPlace)),
      ("out", optional (match command.destination with
        | .directory directory => some (path directory)
        | _ => none)),
      ("no_op", truth dryRun)])

end Listing

/-- The listing of an invocation, as text. -/
def Invocation.listing (invocation : Invocation) : String :=
  let lines := Listing.record "CommandLineInterface"
    [("cmd", Listing.task invocation.dryRun invocation.task)]
  String.join (lines.map fun line => line ++ "\n")

end RecordText.Command
