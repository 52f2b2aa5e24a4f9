/-!
# Target languages

The languages for which members are written. Each has a name, by which it is
chosen, and the file extension of its sources.
-/

namespace RecordText

/-- A language for which members are written. -/
inductive Language where
  | csharp
  | java
  | rust
  deriving DecidableEq, Repr

namespace Language

/-- All languages, in the order in which they are listed. -/
def all : List Language := [csharp, java, rust]

/-- The name by which a language is chosen. -/
def name : Language → String
  | csharp => "csharp"
  | java => "java"
  | rust => "rust"

/-- The file extension of the language's sources. -/
def extension : Language → String
  | csharp => "cs"
  | java => "java"
  | rust => "rs"

/-- The language of a given name; names are exact. -/
def ofName? (text : String) : Option Language :=
  all.find? fun language => language.name == text

theorem ofName?_name (language : Language) : ofName? language.name = some language := by
  cases language <;> rfl

/-- What is said about a name that no language has. -/
def unknownMessage (text : String) : String :=
  "unknown variant `" ++ text ++ "`, expected one of " ++
    String.intercalate ", " (all.map fun language => "`" ++ language.name ++ "`")

end Language

end RecordText
