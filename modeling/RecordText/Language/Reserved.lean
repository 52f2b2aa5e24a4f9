import RecordText.Language.Basic

/-!
# Reserved words

The words that a language keeps for itself. An identifier can be escaped in
some languages, which frees all reserved words in one of them and all but a
few in another.
-/

namespace RecordText.Language

/-- The reserved words of C#. -/
def csharpReserved : List String :=
  ["abstract", "as", "base", "bool", "break", "byte", "case", "catch", "char", "checked",
    "class", "const", "continue", "decimal", "default", "delegate", "do", "double", "else",
    "enum", "event", "explicit", "extern", "false", "finally", "fixed", "float", "for",
    "foreach", "goto", "if", "implicit", "in", "int", "interface", "internal", "is", "lock",
    "long", "namespace", "new", "null", "object", "operator", "out", "override", "params",
    "private", "protected", "public", "readonly", "ref", "return", "sbyte", "sealed", "short",
    "sizeof", "stackalloc", "static", "string", "struct", "switch", "this", "throw", "true",
    "try", "typeof", "uint", "ulong", "unchecked", "unsafe", "ushort", "using", "virtual",
    "void", "volatile", "while"]

/-- The reserved words of Java. -/
def javaReserved : List String :=
  ["_", "abstract", "assert", "boolean", "break", "byte", "case", "catch", "char", "class",
    "const", "continue", "default", "do", "double", "else", "enum", "extends", "false", "final",
    "finally", "float", "for", "goto", "if", "implements", "import", "instanceof", "int",
    "interface", "long", "native", "new", "null", "package", "private", "protected", "public",
    "return", "short", "static", "strictfp", "super", "switch", "synchronized", "this", "throw",
    "throws", "transient", "true", "try", "void", "volatile", "while"]

/-- The reserved words of Rust. -/
def rustReserved : List String :=
  ["_", "abstract", "as", "async", "await", "become", "box", "break", "const", "continue",
    "crate", "do", "dyn", "else", "enum", "extern", "false", "final", "fn", "for", "gen", "if",
    "impl", "in", "let", "loop", "macro", "match", "mod", "move", "mut", "override", "priv",
    "pub", "ref", "return", "self", "Self", "static", "struct", "super", "trait", "true", "try",
    "type", "typeof", "unsafe", "unsized", "use", "virtual", "where", "while", "yield"]

/-- The reserved words of Rust that an escape does not free. -/
def rustAlwaysReserved : List String :=
  ["_", "crate", "self", "Self", "super"]

/-- The words that may not be used as a name, depending on whether the name is escaped. -/
def reserved (language : Language) (escaped : Bool) : List String :=
  match language with
  | csharp => if escaped then [] else csharpReserved
  | java => javaReserved
  | rust => if escaped then rustAlwaysReserved else rustReserved

end RecordText.Language
