import RecordText.Command.Settings
import RecordText.Text.Digits

/-!
# Reading the command line

The first argument names a command; the others are its options. An option with
a long name is written `--name`, with a value `--name value` or `--name=value`;
one with a letter also `-x`, `-x value`, `-xvalue` or `-x=value`. The option for
the inputs takes all arguments up to the next that starts with a hyphen and may
be repeated; a lone hyphen is a value. All other options may be given once.

Arguments are read from left to right. An option whose values stand in
arguments of their own is settled when the next option comes or the arguments
end, so an argument that cannot be placed is reported before a bad value
directly in front of it.
-/

namespace RecordText.Command

open RecordText.Files (Path)

/-- Why there is no command to carry out. -/
inductive UsageFault where
  | missingInput
  | unknownArgument
  | unknownCommand
  | badValue
  | badNumber
  | surplusValue
  | conflict
  | help
  | helpForNothing
  | version
  deriving DecidableEq, Repr

/-- The options. -/
inductive Flag where
  | input
  | pointer
  | query
  | target
  | indent
  | tabs
  | baseIndent
  | out
  | noOp
  | all
  | firstOnly
  | inPlace
  | help
  | version
  deriving DecidableEq, Repr

namespace Flag

/-- The long name of an option. -/
def long : Flag → String
  | input => "input"
  | pointer => "json-pointer"
  | query => "jq-expr"
  | target => "target"
  | indent => "indent"
  | tabs => "tabs"
  | baseIndent => "base-indent"
  | out => "out"
  | noOp => "no-op"
  | all => "all"
  | firstOnly => "first-only"
  | inPlace => "in-place"
  | help => "help"
  | version => "version"

/-- The letter of an option. -/
def letter? : Flag → Option Char
  | input => some 'i'
  | out => some 'o'
  | help => some 'h'
  | version => some 'V'
  | _ => none

/-- Whether an option takes values. -/
def takesValue : Flag → Bool
  | input | pointer | query | target | indent | baseIndent | out => true
  | _ => false

/-- Whether an option takes more values after those it has. -/
def takesMore (flag : Flag) (values : List String) : Bool :=
  flag = input || values.isEmpty

end Flag

/-- The commands that can be named. -/
inductive Verb where
  | generate
  | scan
  | fix
  deriving DecidableEq, Repr

namespace Verb

/-- The name of a command. -/
def name : Verb → String
  | generate => "generate"
  | scan => "scan"
  | fix => "fix"

/-- All commands. -/
def all : List Verb := [generate, scan, fix]

/-- The command of a given name. -/
def ofName? (text : String) : Option Verb :=
  all.find? fun verb => verb.name = text

/-- The options of a command. -/
def flags : Verb → List Flag
  | generate =>
    [.input, .pointer, .query, .target, .indent, .tabs, .baseIndent, .out, .noOp, .help]
  | scan => [.input, .all, .noOp, .help]
  | fix => [.input, .indent, .tabs, .firstOnly, .inPlace, .out, .noOp, .help]

end Verb

/-- The options that were given, with their values. -/
structure Given where
  inputs : List String := []
  pointer : Option String := none
  query : Option String := none
  language : Option Language := none
  width : Option Nat := none
  baseIndent : Option Nat := none
  out : Option Path := none
  /-- The options without a value that were given. -/
  switches : List Flag := []
  deriving DecidableEq, Repr

/-- Read a number of at most 64 bits: decimal digits, with a plus sign in front or without. -/
def readNumber (text : String) : Except UsageFault Nat :=
  let digits := match text.toList with
    | '+' :: rest => rest
    | chars => chars
  match Text.decimal? digits with
  | none => .error .badNumber
  | some value => if value < 0x10000000000000000 then .ok value else .error .badNumber

/-- Read the name of a language. -/
def readLanguage (text : String) : Except UsageFault Language :=
  match Language.ofName? text with
  | none => .error .badValue
  | some language => .ok language

/-- Read a path, which must not be empty. -/
def readPath (text : String) : Except UsageFault Path :=
  if text = "" then .error .badValue else .ok ⟨text⟩

/-- Read the value of an option that may be given once. -/
def readOnce {α : Type} (known : Option α) (read : String → Except UsageFault α) :
    List String → Except UsageFault (Option α)
  | [] => .error .badValue
  | value :: _ => if known.isSome then .error .conflict else (read value).map some

namespace Given

/-- Take note of an option without a value; asking for help or for the version ends the reading. -/
def switchOn (given : Given) (flag : Flag) : Except UsageFault Given :=
  if flag = .help then .error .help
  else if flag = .version then .error .version
  else if given.switches.contains flag then .error .conflict
  else .ok { given with switches := flag :: given.switches }

/-- Take note of an option and its values. -/
def settle (given : Given) (flag : Flag) (values : List String) : Except UsageFault Given :=
  match flag with
  | .input =>
    if values.isEmpty then .error .badValue
    else .ok { given with inputs := given.inputs ++ values }
  | .pointer => do return { given with pointer := ← readOnce given.pointer .ok values }
  | .query => do return { given with query := ← readOnce given.query .ok values }
  | .target => do return { given with language := ← readOnce given.language readLanguage values }
  | .indent => do return { given with width := ← readOnce given.width readNumber values }
  | .baseIndent => do
    return { given with baseIndent := ← readOnce given.baseIndent readNumber values }
  | .out => do return { given with out := ← readOnce given.out readPath values }
  | other => given.switchOn other

end Given

/-- What an argument looks like. -/
inductive Argument where
  | divider
  | long (name : String) (value : Option String)
  | letters (first : Char) (rest : List Char)
  | plain
  deriving DecidableEq, Repr

/-- Cut a text at its first equals sign. -/
def cutAtEquals (text : List Char) : String × Option String :=
  let name := String.ofList (text.takeWhile (· ≠ '='))
  match text.dropWhile (· ≠ '=') with
  | [] => (name, none)
  | _ :: value => (name, some (String.ofList value))

/-- What an argument looks like. -/
def Argument.ofText (text : String) : Argument :=
  match text.toList with
  | ['-', '-'] => divider
  | '-' :: '-' :: rest =>
    let (name, value) := cutAtEquals rest
    long name value
  | '-' :: first :: rest => letters first rest
  | _ => plain

/-- The options read so far, and the last one with its values while these stand in arguments of
their own. -/
structure Reading where
  given : Given := {}
  pending : Option (Flag × List String) := none
  deriving DecidableEq, Repr

namespace Reading

/-- The options with the pending one settled. -/
def settled (reading : Reading) : Except UsageFault Given :=
  match reading.pending with
  | none => .ok reading.given
  | some (flag, values) => reading.given.settle flag values

/-- Read an option, with a value if one is attached to it. -/
def option (reading : Reading) (flag : Flag) (attached : Option String) :
    Except UsageFault Reading :=
  match flag.takesValue, attached with
  | false, some _ => .error .surplusValue
  | false, none => do return { given := ← (← reading.settled).switchOn flag }
  | true, some value => do return { given := ← (← reading.settled).settle flag [value] }
  | true, none => do return { given := ← reading.settled, pending := some (flag, []) }

/-- Read an option by its long name. -/
def longOption (reading : Reading) (flags : List Flag) (name : String)
    (attached : Option String) : Except UsageFault Reading :=
  match flags.find? fun flag => flag.long = name with
  | none => .error .unknownArgument
  | some flag => reading.option flag attached

/-- Read an option by its letter. An option without a value that has a letter ends the reading, so
no second letter follows it. -/
def letterOption (reading : Reading) (flags : List Flag) (letter : Char) (rest : List Char) :
    Except UsageFault Reading :=
  match flags.find? fun flag => flag.letter? = some letter with
  | none => .error .unknownArgument
  | some flag =>
    if flag.takesValue then
      match rest with
      | [] => reading.option flag none
      | '=' :: value => reading.option flag (some (String.ofList value))
      | value => reading.option flag (some (String.ofList value))
    else reading.option flag none

/-- Read an argument that is no option: a value of the pending option, or out of place. -/
def value (reading : Reading) (text : String) : Except UsageFault Reading :=
  match reading.pending with
  | none => .error .unknownArgument
  | some (flag, values) =>
    if flag.takesMore values then
      .ok { reading with pending := some (flag, values ++ [text]) }
    else .error .unknownArgument

/-- Read the arguments of a command; nothing may stand behind a divider. -/
def arguments (flags : List Flag) (reading : Reading) : List String → Except UsageFault Given
  | [] => reading.settled
  | text :: rest =>
    match Argument.ofText text with
    | .divider => if rest.isEmpty then reading.settled else .error .unknownArgument
    | .long name attached => do arguments flags (← reading.longOption flags name attached) rest
    | .letters first more => do arguments flags (← reading.letterOption flags first more) rest
    | .plain => do arguments flags (← reading.value text) rest

end Reading

namespace Given

/-- Whether an option without a value was given. -/
def has (given : Given) (flag : Flag) : Bool :=
  given.switches.contains flag

/-- The indentation that the options ask for. -/
def indentation (given : Given) : Indentation :=
  { width := given.width.getD 4, tabs := given.has .tabs }

/-- Where completed text goes. -/
def destination (given : Given) : Destination :=
  match given.out with
  | some path => .directory path
  | none => if given.has .inPlace then .inPlace else .output

/-- The task that the options of a command make. -/
def task (given : Given) : Verb → Task
  | .generate =>
    .generate {
      inputs := given.inputs, pointer := given.pointer, query := given.query
      language := given.language.getD .csharp, indentation := given.indentation
      baseIndent := given.baseIndent.getD 0, out := given.out }
  | .scan => .scan { inputs := given.inputs, all := given.has .all }
  | .fix =>
    .fix {
      inputs := given.inputs, indentation := given.indentation
      firstOnly := given.has .firstOnly, destination := given.destination }

/-- The invocation that the options of a command make: a file cannot be changed in place and
written elsewhere, and there has to be an input. -/
def invocation (given : Given) (verb : Verb) : Except UsageFault Invocation :=
  if given.has .inPlace && given.out.isSome then .error .conflict
  else if given.inputs.isEmpty then .error .missingInput
  else .ok { task := given.task verb, dryRun := given.has .noOp }

end Given

/-- The command that explains the others. -/
def helpName : String := "help"

/-- Whether a text names a command. -/
def isCommandName (text : String) : Bool :=
  text = helpName || (Verb.ofName? text).isSome

/-- What becomes of a request for help with some commands: at most one can be explained. -/
def helpRequest : List String → UsageFault
  | [] => .help
  | [text] => if isCommandName text then .help else .unknownCommand
  | _ => .unknownCommand

/-- Read a command line. -/
def Invocation.read : List String → Except UsageFault Invocation
  | [] => .error .helpForNothing
  | text :: rest =>
    match Verb.ofName? text with
    | some verb => do (← Reading.arguments verb.flags {} rest).invocation verb
    | none =>
      if text = helpName then .error (helpRequest rest)
      else
        match Argument.ofText text with
        | .divider =>
          match rest with
          | [] => .error .helpForNothing
          | next :: _ => .error (if isCommandName next then .unknownArgument else .unknownCommand)
        | .long name attached =>
          match Reading.longOption {} [.help, .version] name attached with
          | .error fault => .error fault
          | .ok _ => .error .helpForNothing
        | .letters first more =>
          match Reading.letterOption {} [.help, .version] first more with
          | .error fault => .error fault
          | .ok _ => .error .helpForNothing
        | .plain => .error .unknownCommand

end RecordText.Command
