import RecordText.Language.Identifier
import RecordText.Source.Token
import RecordText.Text.WordChar

/-!
# Class headers

A class header is the word `class`, blanks, and a name. It declares a class
unless the word is escaped by an at sign or is a constraint, which stands behind
a colon or a comma.

## Implementation notes

The masked text is walked from left to right with the text before the position
in reverse. Behind a header the walk goes on behind its name.
-/

namespace RecordText.Source

open RecordText.Text

/-- The word that starts a class header. -/
def classWord : List Char := ['c', 'l', 'a', 's', 's']

/-- A class header at the front of a text, and what follows it. -/
structure HeaderMatch where
  gap : List Char
  name : List Char
  rest : List Char
  deriving Repr

/-- The text of a matched header. -/
def HeaderMatch.text (found : HeaderMatch) : List Char :=
  classWord ++ found.gap ++ found.name

/-- Read a C# name, with or without its at sign, as long as it goes. -/
def readName? (text : List Char) : Option Cut :=
  match text with
  | '@' :: c :: rest =>
    if Language.csharp.isNameStart c then
      some ('@' :: c :: rest.takeWhile Language.csharp.isNameRest,
        rest.dropWhile Language.csharp.isNameRest)
    else none
  | c :: rest =>
    if Language.csharp.isNameStart c then
      some (c :: rest.takeWhile Language.csharp.isNameRest,
        rest.dropWhile Language.csharp.isNameRest)
    else none
  | [] => none

theorem readName?_append (text : List Char) (found : Cut) (h : readName? text = some found) :
    found.1 ++ found.2 = text := by
  unfold readName? at h
  split at h
  · split at h
    · cases h
      simp [List.takeWhile_append_dropWhile]
    · cases h
  · split at h
    · cases h
      simp [List.takeWhile_append_dropWhile]
    · cases h
  · cases h

/-- Read a class header at the front of a text. -/
def readHeader? (text : List Char) : Option HeaderMatch :=
  match behind? classWord text with
  | none => none
  | some behind =>
    let gap := behind.takeWhile isBlank
    if gap.isEmpty then none
    else
      (readName? (behind.dropWhile isBlank)).map fun found =>
        { gap, name := found.1, rest := found.2 }

/-- A matched header and what follows it make up the text. -/
theorem readHeader?_append (text : List Char) (found : HeaderMatch)
    (h : readHeader? text = some found) : found.text ++ found.rest = text := by
  unfold readHeader? at h
  split at h
  · cases h
  · rename_i behind hbehind
    rw [behind?_eq_some_iff] at hbehind
    dsimp only at h
    split at h
    · cases h
    · obtain ⟨name, hname, rfl⟩ := Option.map_eq_some_iff.1 h
      simp [HeaderMatch.text, readName?_append _ _ hname, List.takeWhile_append_dropWhile,
        hbehind]

theorem readHeader?_length_lt (text : List Char) (found : HeaderMatch)
    (h : readHeader? text = some found) : found.rest.length < text.length := by
  have happend := congrArg List.length (readHeader?_append text found h)
  simp [HeaderMatch.text, classWord] at happend
  omega

/-- Whether a class header behind this text, given in reverse, declares a class. -/
def declaresClass (before : List Char) : Bool :=
  match before with
  | '@' :: _ => false
  | _ =>
    match before.dropWhile isPlainBlank with
    | ':' :: _ => false
    | ',' :: _ => false
    | _ => true

/-- A class header with its place in the text. -/
structure Header where
  name : List Char
  keywordOffset : Nat
  endOffset : Nat
  /-- The masked text behind the header. -/
  rest : List Char
  deriving Repr

/-- Read the header at a position: a word `class` starts there and a name follows. -/
def headerAt? (before text : List Char) : Option HeaderMatch :=
  if startsOutsideWord before then readHeader? text else none

theorem headerAt?_length_lt (before text : List Char) (found : HeaderMatch)
    (h : headerAt? before text = some found) : found.rest.length < text.length := by
  unfold headerAt? at h
  split at h
  · exact readHeader?_length_lt text found h
  · cases h

/-- All headers of a masked text that declare a class, given the text before it in reverse and the
byte offset of its start. -/
def headers (before : List Char) (offset : Nat) (text : List Char) : List Header :=
  match text with
  | [] => []
  | c :: rest =>
    match _h : headerAt? before (c :: rest) with
    | none => headers (c :: before) (offset + c.utf8Size) rest
    | some found =>
      let endOffset := offset + byteLength found.text
      let later := headers (found.text.reverse ++ before) endOffset found.rest
      if declaresClass before then
        { name := found.name, keywordOffset := offset, endOffset, rest := found.rest } :: later
      else later
termination_by text.length
decreasing_by
  · simp
  · exact headerAt?_length_lt before (c :: rest) found _h

end RecordText.Source
