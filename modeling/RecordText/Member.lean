import RecordText.Descriptor.Validity
import RecordText.Layout
import RecordText.Text.Quoted

/-!
# Generated members

A member prints an instance of a described type as text: for every field in
declaration order the field's bare name, a colon and a space, the value, a
comma and a space. The separator follows every entry, also the last one.

The member is a `ToString` override in C#, a `toString` override in Java and a
`Display` implementation in Rust. A descriptor that is not valid for the
language gives an error and no text.
-/

namespace RecordText

/-- How a member is written: the language, the indentation unit and the depth of its first line. -/
structure Style where
  language : Language := .csharp
  indent : String := "    "
  baseIndent : Nat := 0
  deriving DecidableEq, Repr

/-- The text of a member, with the language that it is written in. -/
structure Member where
  language : Language
  text : String
  deriving DecidableEq, Repr

namespace Member

/-- The line that prints one field in C#. -/
def csharpEntry (name : String) : String :=
  "result.AppendFormat(\"\x7b0\x7d: \x7b1\x7d, \", nameof(" ++ name ++ "), this." ++ name ++ ");"

/-- The line that prints one field in Java. -/
def javaEntry (name : String) : String :=
  "result.append(" ++ Text.quote name ++ ").append(\": \").append(this." ++ name ++
    ").append(\", \");"

/-- The line that prints one field in Rust. -/
def rustEntry (name : String) : String :=
  "write!(f, \"" ++ Language.rust.bareName name ++ ": \x7b\x7d, \", self." ++ name ++ ")?;"

/-- The steps of the C# member. -/
def csharpSteps (descriptor : Descriptor) : List Step :=
  [.line "public override string ToString()",
    .block "\x7b" "\x7d"
      (.line "var result = new System.Text.StringBuilder();" ::
        (descriptor.fieldNames.map fun name => .line (csharpEntry name)) ++
        [.line "return result.ToString();"])]

/-- The steps of the Java member. -/
def javaSteps (descriptor : Descriptor) : List Step :=
  [.line "@Override",
    .block "public String toString() \x7b" "\x7d"
      (.line "StringBuilder result = new StringBuilder();" ::
        (descriptor.fieldNames.map fun name => .line (javaEntry name)) ++
        [.line "return result.toString();"])]

/-- The steps inside the formatting function of the Rust member. -/
def rustBody (descriptor : Descriptor) : List Step :=
  if descriptor.fields.isEmpty then [.line "f.write_str(\"\")"]
  else (descriptor.fieldNames.map fun name => .line (rustEntry name)) ++ [.line "Ok(())"]

/-- The steps of the Rust member. -/
def rustSteps (descriptor : Descriptor) : List Step :=
  [.block ("impl ::std::fmt::Display for " ++ descriptor.typeName ++ " \x7b") "\x7d"
    [.block "fn fmt(&self, f: &mut ::std::fmt::Formatter<'_>) -> ::std::fmt::Result \x7b" "\x7d"
      (rustBody descriptor)]]

/-- The steps that write a descriptor's member in a language. -/
def steps (language : Language) (descriptor : Descriptor) : List Step :=
  match language with
  | .csharp => csharpSteps descriptor
  | .java => javaSteps descriptor
  | .rust => rustSteps descriptor

/-- The text of a descriptor's member, whether or not the descriptor is valid. -/
def layOut (style : Style) (descriptor : Descriptor) : String :=
  (Emitter.steps { unit := style.indent.toList, depth := style.baseIndent }
    (steps style.language descriptor)).finish

end Member

/-- The member of a valid descriptor, or the report of its first fault. -/
def Descriptor.generate (descriptor : Descriptor) (style : Style) :
    Except InvalidDescriptor Member :=
  match descriptor.validate style.language with
  | .error invalid => .error invalid
  | .ok _ => .ok { language := style.language, text := Member.layOut style descriptor }

end RecordText
