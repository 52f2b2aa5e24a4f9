import RecordText.Descriptor.Basic
import RecordText.Source.Body
import RecordText.Source.Header

/-!
# Member declarations

A segment of a class body is read as the declaration of a member. Two kinds of
members matter: an override of `ToString` without parameters, and a property. A
property has modifiers, a type and a name and is followed by a block, or by an
arrow and an expression that a semicolon ends.

## Implementation notes

Attributes in front of the declaration are dropped. The name of a property is
its last word before the arrow; modifiers are dropped from the front as long as
a word follows, and the rest is the type. A type has no parentheses unless it
starts with a tuple.
-/

namespace RecordText.Source

open RecordText.Text

/-- The text behind the first closing bracket. -/
def afterBracket? : List Char → Option (List Char)
  | [] => none
  | c :: rest => if c = ']' then some rest else afterBracket? rest

theorem afterBracket?_length_lt (text rest : List Char) (h : afterBracket? text = some rest) :
    rest.length < text.length := by
  induction text with
  | nil => cases h
  | cons c tail ih =>
      rw [afterBracket?] at h
      split at h
      · cases h
        simp
      · have := ih h
        simp
        omega

/-- Drop blanks and attributes in brackets from the front. -/
def skipAttributes (text : List Char) : List Char :=
  match _h : trimStart text with
  | '[' :: inside =>
    match _h' : afterBracket? inside with
    | some rest => skipAttributes rest
    | none => '[' :: inside
  | other => other
termination_by text.length
decreasing_by
  have hrest := afterBracket?_length_lt inside rest _h'
  have hlen : (trimStart text).length ≤ text.length := (List.dropWhile_suffix _).length_le
  rw [_h] at hlen
  simp at hlen
  omega

/-- The word `override`, in reverse. -/
def overrideReversed : List Char := "override".toList.reverse

/-- The word `ToString`, in reverse. -/
def toStringReversed : List Char := "ToString".toList.reverse

/-- Whether the word `override` stands in this reversed text before any point, `outside` telling
whether the character read last is none of a word. -/
def hasOverride (outside : Bool) : List Char → Bool
  | [] => false
  | c :: rest =>
    if c = '.' then false
    else
      (outside &&
        match behind? overrideReversed (c :: rest) with
        | some before => startsOutsideWord before
        | none => false) ||
      hasOverride (!isWordChar c) rest

/-- Whether a declaration overrides `ToString` without parameters. -/
def overridesToString (declaration : List Char) : Bool :=
  let front := declaration.takeWhile (· ≠ '(')
  match declaration.dropWhile (· ≠ '(') with
  | [] => false
  | _ :: behind =>
    (match trimStart behind with
      | ')' :: _ => true
      | _ => false) &&
    front.all (· ≠ '=') &&
    match behind? toStringReversed (front.reverse.dropWhile isBlank) with
    | some before => startsOutsideWord before && hasOverride false before
    | none => false

/-- The words that may stand in front of a property's type. -/
def modifiers : List (List Char) :=
  ["public", "private", "protected", "internal", "static", "virtual", "override", "abstract",
    "sealed", "new", "readonly", "required", "extern", "unsafe", "partial"].map String.toList

/-- The words that a property's type may not hold. -/
def nonTypeWords : List (List Char) :=
  ["class", "struct", "interface", "enum", "record", "delegate", "event", "operator", "implicit",
    "explicit", "const", "using", "namespace"].map String.toList

/-- Whether a text starts with one of some words and the word ends there. -/
def startsWithWord (words : List (List Char)) (text : List Char) : Bool :=
  words.any fun word =>
    match behind? word text with
    | some rest => startsOutsideWord rest
    | none => false

/-- Whether one of some words stands in a text, `outside` telling whether the character before the
text is none of a word. -/
def hasWord (words : List (List Char)) (outside : Bool) : List Char → Bool
  | [] => false
  | c :: rest =>
    (outside && startsWithWord words (c :: rest)) || hasWord words (!isWordChar c) rest

/-- Whether `c` may stand in a type outside a tuple. -/
def isTypeChar (c : Char) : Bool :=
  !(c == '=' || c == '(' || c == ')' || c == '\x7b' || c == '\x7d' || c == ';')

/-- Whether a text has the form of a type: it may start with one tuple. -/
def isTypeForm : List Char → Bool
  | [] => false
  | '(' :: rest =>
    match rest.dropWhile isTypeChar with
    | ')' :: behind => behind.all isTypeChar
    | _ => false
  | c :: rest => isTypeChar c && !isBlank c && rest.all isTypeChar

/-- Take modifiers off the front of a text as long as a blank follows them. -/
def takeModifiers (text : List Char) : List (List Char) × List Char :=
  let word := text.takeWhile (!isBlank ·)
  match _h : text.dropWhile (!isBlank ·) with
  | [] => ([], text)
  | _ :: behind =>
    if modifiers.contains word then
      let more := takeModifiers (trimStart behind)
      (word :: more.1, more.2)
    else ([], text)
termination_by text.length
decreasing_by
  have hsuffix : (text.dropWhile (!isBlank ·)).length ≤ text.length :=
    (List.dropWhile_suffix _).length_le
  have htrim : (trimStart behind).length ≤ behind.length := (List.dropWhile_suffix _).length_le
  rw [_h] at hsuffix
  simp at hsuffix
  omega

/-- What a declaration says about a property. -/
structure PropertyParts where
  modifiers : List (List Char)
  type : List Char
  name : List Char
  /-- Whether an arrow and an expression follow the name. -/
  arrow : Bool
  deriving Repr

/-- Whether a text is a C# name, with or without its at sign. -/
def isName (text : List Char) : Bool :=
  Language.csharp.isBareForm (Language.csharp.splitEscape text).2

/-- Whether an arrow follows the front of a declaration; nothing else that starts with an equals
sign may. -/
def arrow? : List Char → Option Bool
  | [] => some false
  | '=' :: '>' :: _ => some true
  | _ => none

/-- Read a declaration as a property. -/
def readProperty? (declaration : List Char) : Option PropertyParts := do
  let arrow ← arrow? (declaration.dropWhile (· ≠ '='))
  let front := (trimEnd (declaration.takeWhile (· ≠ '='))).reverse
  let name := (front.takeWhile (!isBlank ·)).reverse
  if isName name = false then none
  let typed := trimEnd (front.dropWhile (!isBlank ·)).reverse
  let (modifiers, type) := takeModifiers typed
  if isTypeForm type = false then none
  return { modifiers, type, name, arrow }

/-- Whether a property stands for a field of the described type: what ends the segment fits its
form, it is not static, and its type holds no word that starts another kind of declaration. -/
def PropertyParts.isField (parts : PropertyParts) (terminator : Terminator) : Bool :=
  (match terminator with
    | .brace => !parts.arrow
    | .semicolon => parts.arrow) &&
  !hasWord nonTypeWords true parts.type &&
  !parts.modifiers.contains "static".toList

/-- What a segment declares, as far as an outline shows it. -/
inductive Declared where
  | toStringOverride
  | property (field : Field)
  deriving DecidableEq, Repr

/-- Read a segment. -/
def Segment.declared? (segment : Segment) : Option Declared :=
  let declaration := trimEnd (skipAttributes segment.text)
  if declaration.isEmpty then none
  else if overridesToString declaration then some .toStringOverride
  else
    match readProperty? declaration with
    | none => none
    | some parts =>
      if parts.isField segment.terminator then
        some (.property
          { name := String.ofList parts.name, declaredType := String.ofList parts.type })
      else none

end RecordText.Source
