import RecordText.Language.Reserved
import RecordText.Text.Letter
import RecordText.Text.Numeral
import RecordText.Text.Start

/-!
# Identifiers

An identifier starts with a letter or an underscore and goes on with letters,
numerals and underscores; Java also takes dollar signs. C# and Rust let a name
be escaped by a mark in front of it, which is no part of the bare name.

## Implementation notes

The check works on characters: the mark is split off first, then the bare
name is tested for its form, and last it is looked up among the words that are
reserved for names with or without the mark.
-/

namespace RecordText.Language

open RecordText.Text

/-- Why a text is not accepted as an identifier. -/
inductive IdentifierIssue where
  | empty
  | malformed
  | reserved
  deriving DecidableEq, Repr

/-- Whether a language admits `c` in names in addition to letters, numerals and underscores. -/
def isExtraNameChar : Language → Char → Bool
  | java, c => c == '$'
  | _, _ => false

/-- Whether a bare name may start with `c`. -/
def isNameStart (language : Language) (c : Char) : Bool :=
  isLetter c || c == '_' || language.isExtraNameChar c

/-- Whether a bare name may go on with `c`. -/
def isNameRest (language : Language) (c : Char) : Bool :=
  isLetter c || isNumeral c || c == '_' || language.isExtraNameChar c

theorem isNameRest_of_isNameStart (language : Language) (c : Char)
    (h : language.isNameStart c = true) : language.isNameRest c = true := by
  simp only [isNameStart, isNameRest, Bool.or_eq_true] at h ⊢
  rcases h with (h | h) | h <;> simp [h]

/-- Whether a text has the form of a name without escape mark. -/
def isBareForm (language : Language) : List Char → Bool
  | [] => false
  | c :: rest => language.isNameStart c && rest.all language.isNameRest

/-- The mark that escapes a name, if the language has one. -/
def escapeMark : Language → Option (List Char)
  | csharp => some ['@']
  | java => none
  | rust => some ['r', '#']

/-- Split the escape mark off a name: whether it was there, and what follows it. -/
def splitEscape (language : Language) (text : List Char) : Bool × List Char :=
  match language.escapeMark with
  | none => (false, text)
  | some mark =>
    match behind? mark text with
    | some rest => (true, rest)
    | none => (false, text)

/-- The name without the language's escape mark. -/
def bareName (language : Language) (name : String) : String :=
  String.ofList (language.splitEscape name.toList).2

/-- Accept a text as an identifier or say why not. -/
def checkIdentifier (language : Language) (name : String) : Except IdentifierIssue Unit :=
  if name.isEmpty then .error .empty
  else
    let (escaped, bare) := language.splitEscape name.toList
    if language.isBareForm bare = false then .error .malformed
    else if (language.reserved escaped).contains (String.ofList bare) then .error .reserved
    else .ok ()

theorem isBareForm_of_checkIdentifier (language : Language) (name : String)
    (h : language.checkIdentifier name = .ok ()) :
    language.isBareForm (language.splitEscape name.toList).2 = true := by
  cases hform : language.isBareForm (language.splitEscape name.toList).2 with
  | true => rfl
  | false =>
      simp only [checkIdentifier, hform, if_true] at h
      split at h <;> cases h

end RecordText.Language
