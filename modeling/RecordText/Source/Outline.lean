import RecordText.Source.Declaration

/-!
# Outlines of C# text

The outline of a text lists its classes in the order of their headers. For each
class it shows the name, the byte offsets of the header and of the braces of
the body, the properties at the top level of the body, and whether `ToString`
is overridden there.

The text may be unfinished: a header may lack a body and a body may lack its
closing brace. Members of a nested class belong to the nested class alone.
-/

namespace RecordText.Source

open RecordText.Text

/-- What an outline shows of one class. -/
structure ClassOutline where
  name : String
  /-- The byte offset of the word `class`. -/
  keywordOffset : Nat
  /-- The byte offset of the body's opening brace. -/
  bodyOpen : Option Nat
  /-- The byte offset of the body's closing brace. -/
  bodyClose : Option Nat
  properties : List Field
  hasToString : Bool
  deriving DecidableEq, Repr

/-- The descriptor of a class: its properties are the fields. -/
def ClassOutline.descriptor (outline : ClassOutline) : Descriptor :=
  { typeName := outline.name, fields := outline.properties }

/-- The properties among some declarations. -/
def properties (declared : List Declared) : List Field :=
  declared.filterMap fun
    | .property field => some field
    | .toStringOverride => none

/-- The outline of the class that a header declares. -/
def Header.outline (header : Header) : ClassOutline :=
  let name := String.ofList header.name
  match findOpen? header.endOffset header.rest with
  | none =>
    { name, keywordOffset := header.keywordOffset, bodyOpen := none, bodyClose := none,
      properties := [], hasToString := false }
  | some (bodyOpen, inside) =>
    let body := walk 0 [] (bodyOpen + 1) inside
    let declared := body.segments.filterMap Segment.declared?
    { name, keywordOffset := header.keywordOffset, bodyOpen := some bodyOpen,
      bodyClose := body.close, properties := properties declared,
      hasToString := declared.contains .toStringOverride }

/-- The outline of a text, given as characters. -/
def outlineChars (text : List Char) : List ClassOutline :=
  (headers [] 0 (mask text)).map Header.outline

/-- The outline of a text. -/
def outline (text : String) : List ClassOutline :=
  outlineChars text.toList

/-- The classes that do not override `ToString`. -/
def lackingToString (text : String) : List ClassOutline :=
  (outline text).filter fun found => !found.hasToString

end RecordText.Source
