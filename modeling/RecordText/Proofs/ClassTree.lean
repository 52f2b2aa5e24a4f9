import RecordText.Proofs.MemberLines
import RecordText.Proofs.Nesting
import RecordText.Proofs.Seam
import RecordText.Source.Outline

/-!
# Class trees

A class tree is a class with properties, fields, methods and further classes
inside. This module describes such trees, the text that they are written as, and
the outline that is expected of that text: all classes in the order of their
headers, each with the properties and the override at its own top level.

## Implementation notes

The parts of a tree carry the proofs that they are well formed, so every tree
can be written. Text between braces, in brackets, in parentheses and behind
equals signs is arbitrary as long as it opens no comment, literal or
preprocessor line, does not hold the letters of the word `class` and keeps the
signs that delimit it. White space next to such text is part of it.
-/

namespace RecordText.Source

open RecordText.Text

/-- White space between two tokens: at least one blank. -/
structure Gap where
  first : Char
  more : List Char
  blank : ∀ c ∈ first :: more, isBlank c = true

/-- The text of a gap. -/
def Gap.text (gap : Gap) : List Char :=
  gap.first :: gap.more

/-- Text without trivia, without the letters of the word `class` and without some signs. -/
structure FreeText (excluded : List Char) where
  text : List Char
  quiet : ∀ c ∈ text, opensTrivia c = false
  free : ∀ c ∈ text, c ∉ excluded
  headerless : ¬ classWord <:+: text

/-- The text inside the brackets of an attribute. -/
abbrev AttributeText := FreeText ['[', ']', '\x7b', '\x7d', ';']

/-- The text of an expression. -/
abbrev ExpressionText := FreeText ['\x7b', '\x7d', ';']

/-- The text inside the parentheses of a method. -/
abbrev ParameterText := FreeText ['(', ')', '\x7b', '\x7d', ';']

/-- The text inside the braces of a property or a method. -/
structure BlockText extends FreeText [] where
  balanced : isBalanced text = true

/-- A modifier. -/
abbrev Modifier := { word : List Char // word ∈ modifiers }

/-- A word that names a type: no modifier, and no word that starts another kind of declaration. -/
structure TypeWord where
  text : List Char
  form : Language.csharp.isBareForm text = true
  wordy : ∀ c ∈ text, isWordChar c = true
  not_modifier : text ∉ modifiers
  not_declaration : text ∉ nonTypeWords

/-- A name of a class or a member, with or without its at sign. Its numerals are those that count
as part of a word, such as the decimal digits. -/
structure NameText where
  text : List Char
  accepted : Language.csharp.checkIdentifier (String.ofList text) = .ok ()
  wordy : ∀ c ∈ text, c = '@' ∨ isWordChar c = true

/-- What may stand in front of a declaration: attributes, then modifiers. -/
structure Front where
  attributes : List (AttributeText × Gap)
  modifiers : List (Modifier × Gap)

/-- The text of attributes. -/
def attributesText (attributes : List (AttributeText × Gap)) : List Char :=
  attributes.flatMap fun item => '[' :: (item.1.text ++ ']' :: item.2.text)

/-- The text of modifiers. -/
def modifiersText (modifiers : List (Modifier × Gap)) : List Char :=
  modifiers.flatMap fun item => item.1.1 ++ item.2.text

/-- The text in front of a declaration. -/
def Front.text (front : Front) : List Char :=
  attributesText front.attributes ++ modifiersText front.modifiers

/-- Whether a modifier stands in front of a declaration. -/
def Front.has (front : Front) (word : List Char) : Bool :=
  (front.modifiers.map fun item => item.1.1).contains word

/-- An equals sign with the value behind it. -/
structure Initializer where
  gap : Gap
  value : ExpressionText

/-- The text of an initializer. -/
def Initializer.text (initializer : Initializer) : List Char :=
  '=' :: (initializer.gap.text ++ initializer.value.text)

/-- What follows the type and the name of a member. -/
inductive MemberRest where
  | autoProperty (block : BlockText)
  | initializedProperty (block : BlockText) (gap : Gap) (initializer : Initializer)
  | arrowProperty (value : ExpressionText)
  | field
  | initializedField (initializer : Initializer)
  | method (parameters : ParameterText) (gap : Gap) (block : BlockText)

/-- The text behind the type and the name of a member. -/
def MemberRest.text : MemberRest → List Char
  | autoProperty block => '\x7b' :: (block.text ++ ['\x7d'])
  | initializedProperty block gap initializer =>
    '\x7b' :: (block.text ++ '\x7d' :: (gap.text ++ (initializer.text ++ [';'])))
  | arrowProperty value => '=' :: '>' :: (value.text ++ [';'])
  | field => [';']
  | initializedField initializer => initializer.text ++ [';']
  | method parameters gap block =>
    '(' :: (parameters.text ++ ')' :: (gap.text ++ '\x7b' :: (block.text ++ ['\x7d'])))

/-- A property, a field or a method. -/
structure MemberDecl where
  front : Front
  type : TypeWord
  typeGap : Gap
  name : NameText
  nameGap : Gap
  rest : MemberRest

/-- The text of a member. -/
def MemberDecl.text (member : MemberDecl) : List Char :=
  member.front.text ++ (member.type.text ++ (member.typeGap.text ++ (member.name.text ++
    (member.nameGap.text ++ member.rest.text))))

/-- The head of a class, up to the opening brace. -/
structure ClassHead where
  front : Front
  classGap : Gap
  name : NameText
  nameGap : Gap

/-- The text of a head. -/
def ClassHead.text (head : ClassHead) : List Char :=
  head.front.text ++ (classWord ++ (head.classGap.text ++ (head.name.text ++ head.nameGap.text)))

/-- What stands between the braces of a class: members and classes, each behind a gap, and a gap in
front of the closing brace. -/
inductive Members where
  | done (gap : Gap)
  | member (gap : Gap) (first : MemberDecl) (rest : Members)
  | nested (gap : Gap) (head : ClassHead) (inner rest : Members)

/-- The text between the braces of a class. -/
def Members.text : Members → List Char
  | done gap => gap.text
  | member gap first rest => gap.text ++ (first.text ++ rest.text)
  | nested gap head inner rest =>
    gap.text ++ (head.text ++ '\x7b' :: (inner.text ++ '\x7d' :: rest.text))

/-- A class with everything inside. -/
structure ClassTree where
  head : ClassHead
  members : Members

/-- The text of a class tree. -/
def ClassTree.text (tree : ClassTree) : List Char :=
  tree.head.text ++ '\x7b' :: (tree.members.text ++ ['\x7d'])

/-- What an outline shows of a member: a property that is not static, or an override of `ToString`
without parameters. -/
def MemberDecl.declared? (member : MemberDecl) : Option Declared :=
  match member.rest with
  | .autoProperty _ | .initializedProperty _ _ _ | .arrowProperty _ =>
    if member.front.has "static".toList then none
    else some (.property
      { name := String.ofList member.name.text, declaredType := String.ofList member.type.text })
  | .field | .initializedField _ => none
  | .method parameters _ _ =>
    if member.front.has "override".toList &&
        (Language.csharp.splitEscape member.name.text).2 == "ToString".toList &&
        allBlank parameters.text then
      some .toStringOverride
    else none

/-- What an outline shows of the members of a class, without those of the classes inside. -/
def Members.declared : Members → List Declared
  | done _ => []
  | member _ first rest => first.declared?.toList ++ rest.declared
  | nested _ _ _ rest => rest.declared

/-- What an outline shows of a class whose head starts at a byte offset. -/
def ClassHead.outline (head : ClassHead) (offset : Nat) (members : Members) : ClassOutline :=
  { name := String.ofList head.name.text
    keywordOffset := offset + byteLength head.front.text
    bodyOpen := some (offset + byteLength head.text)
    bodyClose := some (offset + byteLength head.text + 1 + byteLength members.text)
    properties := properties members.declared
    hasToString := members.declared.contains .toStringOverride }

/-- The classes among some members, in the order of their headers, `offset` being the byte offset
of the members. -/
def Members.outlines (offset : Nat) : Members → List ClassOutline
  | done _ => []
  | member gap first rest =>
    rest.outlines (offset + byteLength gap.text + byteLength first.text)
  | nested gap head inner rest =>
    let start := offset + byteLength gap.text
    let inside := start + byteLength head.text + 1
    head.outline start inner ::
      (inner.outlines inside ++ rest.outlines (inside + byteLength inner.text + 1))

/-- The outline that is expected of a tree, `offset` being the byte offset of its head. -/
def ClassTree.outlines (tree : ClassTree) (offset : Nat) : List ClassOutline :=
  tree.head.outline offset tree.members ::
    tree.members.outlines (offset + byteLength tree.head.text + 1)

end RecordText.Source
