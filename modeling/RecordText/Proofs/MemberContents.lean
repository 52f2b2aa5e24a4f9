import RecordText.Proofs.EscapedNames
import RecordText.Proofs.MemberFrame

/-!
# What a member says

A reader takes the text of a member apart again: the described type, where the
language writes it, and for each field the printed label, the member that is
accessed and what is printed behind both. It reads the text from its start,
word by word, so nothing is asked of the indentation: the unit may hold any
characters, line feeds among them.

## Implementation notes

The three languages reach the label by different ways. C# prints the name of an
identifier, which is the identifier without its mark. Java prints a quoted text
and Rust the part of a format in front of the colon. Names are read up to the
first character that no identifier has, which is enough because every name is
followed by a bracket, a colon or a space.
-/

namespace RecordText

open RecordText.Text

namespace Text

/-- Read quoted text behind its opening quote: the text, and what follows the closing quote. -/
def readQuoted? : List Char → Option (List Char × List Char)
  | [] => none
  | '"' :: rest => some ([], rest)
  | ['\\'] => none
  | '\\' :: c :: rest => do
    let plain ← unescapeChar? c
    let (text, rest) ← readQuoted? rest
    return (plain :: text, rest)
  | c :: rest => do
    let (text, rest) ← readQuoted? rest
    return (c :: text, rest)

theorem readQuoted?_cons (c : Char) (rest : List Char) (hquote : c ≠ '"') (hslash : c ≠ '\\') :
    readQuoted? (c :: rest) = (readQuoted? rest).map fun found => (c :: found.1, found.2) := by
  rw [readQuoted?.eq_5 c rest hquote (fun h => (hslash h).elim) (fun _ _ h => (hslash h).elim)]
  cases readQuoted? rest <;> rfl

theorem readQuoted?_escapeChar (c : Char) (rest : List Char) :
    readQuoted? (escapeChar c ++ rest) =
      (readQuoted? rest).map fun found => (c :: found.1, found.2) := by
  unfold escapeChar
  split_ifs with hquote hslash hfeed hreturn htab
  case neg => exact readQuoted?_cons c rest hquote hslash
  all_goals
    subst c
    cases hrest : readQuoted? rest <;>
      simp [readQuoted?, unescapeChar?, hrest]

/-- What was escaped is read back up to the quote behind it. -/
theorem readQuoted?_escape (text rest : List Char) :
    readQuoted? (escape text ++ '"' :: rest) = some (text, rest) := by
  induction text with
  | nil => rfl
  | cons c text ih =>
      rw [escape, List.flatMap_cons, List.append_assoc, readQuoted?_escapeChar, ← escape, ih]
      rfl

theorem escape_eq_self (text : List Char) (h : ∀ c ∈ text, escapeChar c = [c]) :
    escape text = text := by
  induction text with
  | nil => rfl
  | cons c text ih =>
      rw [escape, List.flatMap_cons, h c (by simp), ← escape,
        ih fun d hd => h d (List.mem_cons_of_mem _ hd)]
      rfl

theorem readQuoted?_word (word rest : List Char) (h : escape word = word) :
    readQuoted? (word ++ '"' :: rest) = some (word, rest) := by
  conv_lhs => rw [← h]
  exact readQuoted?_escape word rest

/-- A text does not start with a word from which it differs in its first characters. -/
theorem behind?_eq_none_of_take_ne (n : Nat) (word text rest : List Char) (hword : n ≤ word.length)
    (htext : n ≤ text.length) (h : word.take n ≠ text.take n) :
    behind? word (text ++ rest) = none := by
  cases hbehind : behind? word (text ++ rest) with
  | none => rfl
  | some found =>
      have heq := congrArg (List.take n) ((behind?_eq_some_iff _ _ _).1 hbehind)
      rw [List.take_append_of_le_length hword, List.take_append_of_le_length htext] at heq
      exact absurd heq h

end Text

namespace Language

/-- Whether `c` stands in identifiers of a language, escape marks included. -/
def isIdentifierChar (language : Language) (c : Char) : Bool :=
  language.isNameRest c || (language.escapeMark.getD []).contains c

/-- Read the identifier at the start of a text. -/
def readIdentifier? (language : Language) (text : List Char) : Option (String × List Char) :=
  let name := String.ofList (text.takeWhile language.isIdentifierChar)
  match language.checkIdentifier name with
  | .ok _ => some (name, text.dropWhile language.isIdentifierChar)
  | .error _ => none

/-- Text of the form of a bare name consists of identifier characters. -/
theorem isIdentifierChar_of_isBareForm (language : Language) (text : List Char)
    (h : language.isBareForm text = true) : ∀ c ∈ text, language.isIdentifierChar c = true := by
  cases text with
  | nil => simp
  | cons first rest =>
      simp only [isBareForm, Bool.and_eq_true, List.all_eq_true] at h
      intro c hc
      rw [isIdentifierChar, Bool.or_eq_true]
      left
      rcases List.mem_cons.1 hc with rfl | hrest
      · exact language.isNameRest_of_isNameStart c h.1
      · exact h.2 c hrest

/-- The bare name of an identifier consists of identifier characters. -/
theorem isIdentifierChar_bareName (language : Language) (name : String)
    (h : language.checkIdentifier name = .ok ()) :
    ∀ c ∈ (language.bareName name).toList, language.isIdentifierChar c = true :=
  isIdentifierChar_of_isBareForm _ _ (isBareForm_bareName _ h)

/-- An identifier consists of identifier characters. -/
theorem isIdentifierChar_of_checkIdentifier (language : Language) (name : String)
    (h : language.checkIdentifier name = .ok ()) :
    ∀ c ∈ name.toList, language.isIdentifierChar c = true := by
  have hbare := isIdentifierChar_bareName language name h
  intro c hc
  rcases language.eq_bareName_or_escapes name with hname | ⟨mark, hmark, hname⟩
  · rw [hname] at hc
    exact hbare c hc
  · rw [hname, String.toList_append, String.toList_ofList] at hc
    rcases List.mem_append.1 hc with hin | hin
    · simp [isIdentifierChar, hmark, hin]
    · exact hbare c hin

/-- Whether a word starts with a character that no identifier has. -/
def endsIdentifier (language : Language) : List Char → Bool
  | [] => false
  | c :: _ => !language.isIdentifierChar c

/-- An identifier is read up to the word behind it. -/
theorem readIdentifier?_append (language : Language) (name : String) (word rest : List Char)
    (h : language.checkIdentifier name = .ok ()) (hword : language.endsIdentifier word = true) :
    language.readIdentifier? (name.toList ++ (word ++ rest)) = some (name, word ++ rest) := by
  have hchars := isIdentifierChar_of_checkIdentifier _ _ h
  cases word with
  | nil => cases hword
  | cons c word =>
      have hstop : language.isIdentifierChar c = false := by simpa [endsIdentifier] using hword
      have htake : (name.toList ++ (c :: word ++ rest)).takeWhile language.isIdentifierChar =
          name.toList := by
        rw [List.takeWhile_append_of_pos hchars]
        simp [hstop]
      have hdrop : (name.toList ++ (c :: word ++ rest)).dropWhile language.isIdentifierChar =
          c :: word ++ rest := by
        rw [List.dropWhile_append_of_pos hchars]
        simp [hstop]
      simp only [readIdentifier?, htake, hdrop, String.ofList_toList, h]

/-- No identifier has characters that are escaped between quotes. -/
theorem escapeChar_of_isIdentifierChar (language : Language) (c : Char)
    (h : language.isIdentifierChar c = true) : escapeChar c = [c] := by
  unfold escapeChar
  split_ifs with hquote hslash hfeed hreturn htab
  case neg => rfl
  all_goals
    subst c
    cases language <;> exact absurd h (by decide)

end Language

/-- What a member prints for one field, and which member of the instance it prints. -/
structure FieldEntry where
  label : String
  colon : String
  member : String
  comma : String
  deriving DecidableEq, Repr

/-- The entry of a field. -/
def FieldEntry.ofField (language : Language) (name : String) : FieldEntry where
  label := language.bareName name
  colon := ": "
  member := name
  comma := ", "

/-- What a member says: the type, where it is named, and the entries in order. -/
structure Reading where
  typeName : Option String
  entries : List FieldEntry
  deriving DecidableEq, Repr

namespace Member

/-- What stands in a format in front of its next hole. -/
def beforeHole (format : List Char) : List Char :=
  format.takeWhile (· != '\x7b')

/-- What stands in a format from its next hole on. -/
def fromHole (format : List Char) : List Char :=
  format.dropWhile (· != '\x7b')

/-- Read the C# statement that prints one field. -/
def readCSharpStatement? (text : List Char) : Option (FieldEntry × List Char) := do
  let rest ← behind? "result.AppendFormat(\"".toList text
  let (format, rest) ← readQuoted? rest
  let format ← behind? "\x7b0\x7d".toList format
  let comma ← behind? "\x7b1\x7d".toList (fromHole format)
  let rest ← behind? ", nameof(".toList rest
  let (named, rest) ← Language.csharp.readIdentifier? rest
  let rest ← behind? entryMiddle rest
  let (member, rest) ← Language.csharp.readIdentifier? rest
  let rest ← behind? entryEnd rest
  return ({ label := Language.csharp.bareName named, colon := String.ofList (beforeHole format),
            member, comma := String.ofList comma }, rest)

/-- Read the Java statement that prints one field. -/
def readJavaStatement? (text : List Char) : Option (FieldEntry × List Char) := do
  let rest ← behind? "result.append(\"".toList text
  let (label, rest) ← readQuoted? rest
  let rest ← behind? ").append(\"".toList rest
  let (colon, rest) ← readQuoted? rest
  let rest ← behind? ").append(this.".toList rest
  let (member, rest) ← Language.java.readIdentifier? rest
  let rest ← behind? ").append(\"".toList rest
  let (comma, rest) ← readQuoted? rest
  let rest ← behind? entryEnd rest
  return ({ label := String.ofList label, colon := String.ofList colon, member,
            comma := String.ofList comma }, rest)

/-- Read the Rust statement that prints one field. -/
def readRustStatement? (text : List Char) : Option (FieldEntry × List Char) := do
  let rest ← behind? "write!(f, \"".toList text
  let (format, rest) ← readQuoted? rest
  let label := format.takeWhile (· != ':')
  let format := format.dropWhile (· != ':')
  let comma ← behind? "\x7b\x7d".toList (fromHole format)
  let rest ← behind? ", self.".toList rest
  let (member, rest) ← Language.rust.readIdentifier? rest
  let rest ← behind? ")?;".toList rest
  return ({ label := String.ofList label, colon := String.ofList (beforeHole format), member,
            comma := String.ofList comma }, rest)

/-- Read the statement that prints one field. -/
def readStatement? : Language → List Char → Option (FieldEntry × List Char)
  | .csharp => readCSharpStatement?
  | .java => readJavaStatement?
  | .rust => readRustStatement?

/-- Read the lines that print fields, and what follows them. -/
def readEntries (language : Language) (indent text : List Char) : List FieldEntry × List Char :=
  match (behind? indent text).bind (readStatement? language) with
  | some (entry, '\n' :: rest) =>
    if rest.length < text.length then
      let found := readEntries language indent rest
      (entry :: found.1, found.2)
    else ([], text)
  | _ => ([], text)
termination_by text.length

/-- Read the lines in front of those that print fields. -/
def readFront? (language : Language) (unit : List Char) (depth : Nat) (text : List Char) :
    Option (Option String × List Char) :=
  match language with
  | .rust => do
    let rest ← behind? (copies depth unit ++ "impl ::std::fmt::Display for ".toList) text
    let (typeName, rest) ← Language.rust.readIdentifier? rest
    let rest ← behind? (" \x7b".toList ++ '\n' ::
      writtenLines unit ((frontLines .rust typeName depth).drop 1)) rest
    return (some typeName, rest)
  | language => do
    let rest ← behind? (writtenLines unit (frontLines language "" depth)) text
    return (none, rest)

/-- Read a member. -/
def read? (style : Style) (text : List Char) : Option Reading := do
  let unit := style.indent.toList
  let (typeName, rest) ← readFront? style.language unit style.baseIndent text
  let (entries, rest) :=
    readEntries style.language (copies (style.baseIndent + entryLevel style.language) unit) rest
  if rest = joinWith ['\n'] ((endLines style.language entries.isEmpty style.baseIndent).map
      (writtenLine unit)) then
    return { typeName, entries }
  else none

theorem readStatement?_csharp (name : String) (rest : List Char)
    (h : Language.csharp.checkIdentifier name = .ok ()) :
    readStatement? .csharp ((entryLine .csharp name).toList ++ rest) =
      some (FieldEntry.ofField .csharp name, rest) := by
  have hopening : entryOpening = "result.AppendFormat(\"".toList ++
      ("\x7b0\x7d: \x7b1\x7d, ".toList ++ '"' :: ", nameof(".toList) := by
    decide
  have hplain : escape "\x7b0\x7d: \x7b1\x7d, ".toList = "\x7b0\x7d: \x7b1\x7d, ".toList := by
    decide
  have hformat : behind? "\x7b0\x7d".toList "\x7b0\x7d: \x7b1\x7d, ".toList =
      some ": \x7b1\x7d, ".toList := by
    decide
  have hcomma : behind? "\x7b1\x7d".toList (fromHole ": \x7b1\x7d, ".toList) =
      some ", ".toList := by
    decide
  have hcolon : beforeHole ": \x7b1\x7d, ".toList = ": ".toList := by
    decide
  have hnamed (more : List Char) :=
    Language.csharp.readIdentifier?_append name entryMiddle more h (by decide)
  have hmember (more : List Char) :=
    Language.csharp.readIdentifier?_append name entryEnd more h (by decide)
  rw [readStatement?, entryLine, csharpEntry_toList, hopening]
  unfold readCSharpStatement?
  generalize "result.AppendFormat(\"".toList = opening
  generalize "\x7b0\x7d: \x7b1\x7d, ".toList = format at hplain hformat ⊢
  generalize ": \x7b1\x7d, ".toList = behind at hformat hcomma hcolon ⊢
  generalize "\x7b0\x7d".toList = label at hformat ⊢
  generalize "\x7b1\x7d".toList = value at hcomma ⊢
  generalize ", nameof(".toList = named
  simp only [List.append_assoc, List.cons_append, behind?_append, Option.bind_eq_bind,
    Option.bind_some, readQuoted?_word _ _ hplain, hformat, hcomma, hnamed, hmember, hcolon,
    String.ofList_toList, FieldEntry.ofField, Option.pure_def]

theorem javaEntry_toList (name : String) : (javaEntry name).toList =
    "result.append(\"".toList ++ (escape name.toList ++ '"' :: (").append(\"".toList ++
      (": ".toList ++ '"' :: (").append(this.".toList ++ (name.toList ++ (").append(\"".toList ++
        (", ".toList ++ '"' :: entryEnd))))))) := by
  have hentry : javaEntry name = "result.append(" ++ Text.quote name ++
      ").append(\": \").append(this." ++ name ++ ").append(\", \");" := by
    delta javaEntry
    rfl
  have hcall : "result.append(\"".toList = "result.append(".toList ++ ['"'] := by decide
  have hcolon : ").append(\": \").append(this.".toList = ").append(\"".toList ++
      (": ".toList ++ '"' :: ").append(this.".toList) := by decide
  have hcomma : ").append(\", \");".toList = ").append(\"".toList ++
      (", ".toList ++ '"' :: entryEnd) := by decide
  rw [hentry, hcall]
  simp only [String.toList_append, hcolon, hcomma, Text.quote, quoteChars, String.toList_ofList,
    List.append_assoc, List.cons_append, List.nil_append]

theorem readStatement?_java (name : String) (rest : List Char)
    (h : Language.java.checkIdentifier name = .ok ()) :
    readStatement? .java ((entryLine .java name).toList ++ rest) =
      some (FieldEntry.ofField .java name, rest) := by
  have hcolon : escape ": ".toList = ": ".toList := by decide
  have hcomma : escape ", ".toList = ", ".toList := by decide
  have hmember (more : List Char) :=
    Language.java.readIdentifier?_append name ").append(\"".toList more h (by decide)
  have hbare : Language.java.bareName name = name := by
    simp [Language.bareName, Language.splitEscape, Language.escapeMark]
  rw [readStatement?, entryLine, javaEntry_toList, readJavaStatement?]
  simp only [List.append_assoc, List.cons_append, behind?_append, Option.bind_eq_bind,
    Option.bind_some, readQuoted?_escape, readQuoted?_word _ _ hcolon, readQuoted?_word _ _ hcomma,
    hmember, String.ofList_toList, FieldEntry.ofField, hbare, Option.pure_def]

theorem rustEntry_toList (name : String) : (rustEntry name).toList =
    "write!(f, \"".toList ++ ((Language.rust.bareName name).toList ++ ": \x7b\x7d, ".toList ++
      '"' :: (", self.".toList ++ (name.toList ++ ")?;".toList))) := by
  have hentry : rustEntry name = "write!(f, \"" ++ Language.rust.bareName name ++
      ": \x7b\x7d, \", self." ++ name ++ ")?;" := by
    delta rustEntry
    rfl
  have hformat : ": \x7b\x7d, \", self.".toList = ": \x7b\x7d, ".toList ++
      '"' :: ", self.".toList := by decide
  rw [hentry]
  simp only [String.toList_append, hformat, List.append_assoc, List.cons_append]

theorem readStatement?_rust (name : String) (rest : List Char)
    (h : Language.rust.checkIdentifier name = .ok ()) :
    readStatement? .rust ((entryLine .rust name).toList ++ rest) =
      some (FieldEntry.ofField .rust name, rest) := by
  have hbare := Language.isIdentifierChar_bareName _ name h
  have hlabel : ∀ c ∈ (Language.rust.bareName name).toList, (c != ':') = true := by
    intro c hc
    rw [bne_iff_ne]
    rintro rfl
    exact absurd (hbare ':' hc) (by decide)
  have hseparators : ∀ c ∈ ": \x7b\x7d, ".toList, escapeChar c = [c] := by decide
  have hplain : escape ((Language.rust.bareName name).toList ++ ": \x7b\x7d, ".toList) =
      (Language.rust.bareName name).toList ++ ": \x7b\x7d, ".toList := by
    apply escape_eq_self
    intro c hc
    rcases List.mem_append.1 hc with hin | hin
    · exact Language.escapeChar_of_isIdentifierChar _ c (hbare c hin)
    · exact hseparators c hin
  have hmember (more : List Char) :=
    Language.rust.readIdentifier?_append name ")?;".toList more h (by decide)
  have hfirst : (": \x7b\x7d, ".toList).takeWhile (· != ':') = [] := by decide
  have hrest : (": \x7b\x7d, ".toList).dropWhile (· != ':') = ": \x7b\x7d, ".toList := by
    decide
  have hcomma : behind? "\x7b\x7d".toList (fromHole ": \x7b\x7d, ".toList) =
      some ", ".toList := by
    decide
  have hcolon : beforeHole ": \x7b\x7d, ".toList = ": ".toList := by decide
  rw [readStatement?, entryLine, rustEntry_toList]
  unfold readRustStatement?
  simp only [List.append_assoc, List.cons_append, behind?_append, Option.bind_eq_bind,
    Option.bind_some]
  rw [← List.append_assoc, readQuoted?_word _ _ hplain]
  simp only [List.takeWhile_append_of_pos hlabel, List.dropWhile_append_of_pos hlabel, hfirst,
    hrest, List.append_nil, behind?_append, Option.bind_some, hcomma, hcolon, hmember,
    String.ofList_toList, FieldEntry.ofField, Option.pure_def]

/-- The statement of a field is read back. -/
theorem readStatement?_entryLine (language : Language) (name : String) (rest : List Char)
    (h : language.checkIdentifier name = .ok ()) :
    readStatement? language ((entryLine language name).toList ++ rest) =
      some (FieldEntry.ofField language name, rest) := by
  cases language with
  | csharp => exact readStatement?_csharp name rest h
  | java => exact readStatement?_java name rest h
  | rust => exact readStatement?_rust name rest h

theorem entryLine_ne_nil (language : Language) (name : String) :
    (entryLine language name).toList ≠ [] := by
  cases language with
  | csharp => exact entry_ne_nil name
  | java =>
      rw [entryLine, javaEntry_toList]
      exact List.append_ne_nil_of_left_ne_nil (by decide) _
  | rust =>
      rw [entryLine, rustEntry_toList]
      exact List.append_ne_nil_of_left_ne_nil (by decide) _

theorem writtenLine_entry (language : Language) (unit : List Char) (depth : Nat) (name : String) :
    writtenLine unit (depth, entryLine language name) =
      copies depth unit ++ (entryLine language name).toList := by
  have hne := entryLine_ne_nil language name
  rw [writtenLine, indentLine, if_neg (by simpa using hne)]

/-- Reading takes one line of a field and goes on behind it. -/
theorem readEntries_cons (language : Language) (unit rest : List Char) (depth : Nat) (name : String)
    (h : language.checkIdentifier name = .ok ()) :
    readEntries language (copies depth unit)
        (writtenLine unit (depth, entryLine language name) ++ '\n' :: rest) =
      (FieldEntry.ofField language name :: (readEntries language (copies depth unit) rest).1,
        (readEntries language (copies depth unit) rest).2) := by
  conv_lhs => rw [readEntries]
  rw [writtenLine_entry, List.append_assoc, behind?_append, Option.bind_some,
    readStatement?_entryLine language name _ h]
  simp only
  rw [if_pos]
  simp only [List.length_append, List.length_cons]
  omega

/-- Reading stops at a line that prints no field. -/
theorem readEntries_stop (language : Language) (indent text : List Char)
    (h : (behind? indent text).bind (readStatement? language) = none) :
    readEntries language indent text = ([], text) := by
  rw [readEntries, h]

/-- Lines of fields are read back one by one, up to a line that prints no field. -/
theorem readEntries_append (language : Language) (unit rest : List Char) (depth : Nat)
    (names : List String) (hnames : ∀ name ∈ names, language.checkIdentifier name = .ok ())
    (hrest : (behind? (copies (depth + entryLevel language) unit) rest).bind
      (readStatement? language) = none) :
    readEntries language (copies (depth + entryLevel language) unit)
        (writtenLines unit (entryLines language names depth) ++ rest) =
      (names.map (FieldEntry.ofField language), rest) := by
  induction names with
  | nil => exact readEntries_stop language _ _ hrest
  | cons name names ih =>
      have hline : writtenLines unit (entryLines language (name :: names) depth) ++ rest =
          writtenLine unit (depth + entryLevel language, entryLine language name) ++ '\n' ::
            (writtenLines unit (entryLines language names depth) ++ rest) := by
        simp [entryLines, writtenLines]
      rw [hline, readEntries_cons language unit _ _ name (hnames name (by simp)),
        ih fun other hother => hnames other (List.mem_cons_of_mem _ hother)]
      rfl

/-- The first line behind those of the fields stands as deep as they do and prints no field. -/
theorem exists_endLines (language : Language) (noFields : Bool) (depth : Nat) :
    ∃ first more, endLines language noFields depth =
        (depth + entryLevel language, first) :: more ∧ first.toList ≠ [] ∧
      ∀ rest, readStatement? language (first.toList ++ rest) = none := by
  cases language with
  | csharp =>
      refine ⟨"return result.ToString();", _, rfl, by decide, fun rest => ?_⟩
      rw [readStatement?, readCSharpStatement?, behind?_eq_none_of_take_ne 3 _ _ _
        (by decide) (by decide) (by decide)]
      rfl
  | java =>
      refine ⟨"return result.toString();", _, rfl, by decide, fun rest => ?_⟩
      rw [readStatement?, readJavaStatement?, behind?_eq_none_of_take_ne 3 _ _ _
        (by decide) (by decide) (by decide)]
      rfl
  | rust =>
      refine ⟨if noFields then "f.write_str(\"\")" else "Ok(())", _, rfl, ?_, fun rest => ?_⟩
      · cases noFields <;> decide
      · rw [readStatement?, readRustStatement?, behind?_eq_none_of_take_ne 1 _ _ _
          (by decide)]
        · rfl
        · cases noFields <;> decide
        · cases noFields <;> decide

theorem endLines_ne_nil (language : Language) (noFields : Bool) (depth : Nat) :
    endLines language noFields depth ≠ [] := by
  obtain ⟨first, more, heq, -, -⟩ := exists_endLines language noFields depth
  rw [heq]
  exact List.cons_ne_nil _ _

/-- The lines behind those of the fields print no field. -/
theorem readStatement?_endLines (language : Language) (unit : List Char) (depth : Nat)
    (noFields : Bool) :
    (behind? (copies (depth + entryLevel language) unit) (joinWith ['\n']
      ((endLines language noFields depth).map (writtenLine unit)))).bind
        (readStatement? language) = none := by
  obtain ⟨first, more, heq, hne, hnone⟩ := exists_endLines language noFields depth
  have hfirst : writtenLine unit (depth + entryLevel language, first) =
      copies (depth + entryLevel language) unit ++ first.toList := by
    rw [writtenLine, indentLine, if_neg (by simpa using hne)]
  rw [heq, List.map_cons, joinWith_cons, hfirst, List.append_assoc, behind?_append,
    Option.bind_some, hnone]

/-- The lines in front of those of the fields are read back. -/
theorem readFront?_frontLines (language : Language) (typeName : String) (unit rest : List Char)
    (depth : Nat) (h : language.checkIdentifier typeName = .ok ()) :
    readFront? language unit depth
        (writtenLines unit (frontLines language typeName depth) ++ rest) =
      some (if language = .rust then some typeName else none, rest) := by
  cases language with
  | csharp =>
      have hfixed : frontLines .csharp typeName depth = frontLines .csharp "" depth := rfl
      rw [hfixed, readFront?, behind?_append]
      · rfl
      · simp
  | java =>
      have hfixed : frontLines .java typeName depth = frontLines .java "" depth := rfl
      rw [hfixed, readFront?, behind?_append]
      · rfl
      · simp
  | rust =>
      have hname := Language.rust.readIdentifier?_append typeName " \x7b".toList
        ('\n' :: (writtenLines unit ((frontLines .rust typeName depth).drop 1) ++ rest)) h
        (by decide)
      have hfirst :
          writtenLine unit (depth, "impl ::std::fmt::Display for " ++ typeName ++ " \x7b") =
          copies depth unit ++ "impl ::std::fmt::Display for ".toList ++
            (typeName.toList ++ " \x7b".toList) := by
        rw [writtenLine, indentLine, if_neg (by simp)]
        simp only [String.toList_append, List.append_assoc]
      have htext : writtenLines unit (frontLines .rust typeName depth) ++ rest =
          (copies depth unit ++ "impl ::std::fmt::Display for ".toList) ++ (typeName.toList ++
            (" \x7b".toList ++ '\n' ::
              (writtenLines unit ((frontLines .rust typeName depth).drop 1) ++ rest))) := by
        simp only [frontLines, writtenLines, List.flatMap_cons, hfirst, List.drop_succ_cons,
          List.drop_zero, List.append_assoc, List.cons_append, List.nil_append]
      rw [htext]
      unfold readFront?
      simp only [behind?_append, Option.bind_eq_bind, Option.bind_some, hname]
      rw [← List.cons_append, ← List.append_assoc, behind?_append]
      rfl

/-- What the member of a descriptor says. -/
def reading (language : Language) (descriptor : Descriptor) : Reading where
  typeName := if language = .rust then some descriptor.typeName else none
  entries := descriptor.fieldNames.map (FieldEntry.ofField language)

/-- The text of a member is its front, its fields and its end. -/
theorem layOut_eq_parts (style : Style) (descriptor : Descriptor) :
    (layOut style descriptor).toList =
      writtenLines style.indent.toList
          (frontLines style.language descriptor.typeName style.baseIndent) ++
        (writtenLines style.indent.toList
            (entryLines style.language descriptor.fieldNames style.baseIndent) ++
          joinWith ['\n'] ((endLines style.language descriptor.fieldNames.isEmpty
            style.baseIndent).map (writtenLine style.indent.toList))) := by
  have hend : (endLines style.language descriptor.fieldNames.isEmpty style.baseIndent).map
      (writtenLine style.indent.toList) ≠ [] := by
    rw [Ne, List.map_eq_nil_iff]
    exact endLines_ne_nil _ _ _
  rw [layOut_eq_frame, frame, List.map_append, List.map_append, ← List.append_assoc,
    joinWith_append _ _ hend, List.flatMap_append, List.flatMap_map, List.flatMap_map,
    List.append_assoc]
  rfl

/-- The member of a valid descriptor is read back. -/
theorem read?_layOut (style : Style) (descriptor : Descriptor)
    (h : descriptor.validate style.language = .ok ()) :
    read? style (layOut style descriptor).toList = some (reading style.language descriptor) := by
  obtain ⟨htype, hnames⟩ := checkIdentifier_of_validate _ _ _ h
  have hentries := readEntries_append style.language style.indent.toList _ style.baseIndent
    descriptor.fieldNames hnames (readStatement?_endLines style.language style.indent.toList
      style.baseIndent descriptor.fieldNames.isEmpty)
  simp only [read?, layOut_eq_parts, readFront?_frontLines _ _ _ _ _ htype, hentries,
    Option.bind_eq_bind, Option.bind_some, List.isEmpty_map, if_true, Option.pure_def, reading]

/-- Two field names with the same entry are the same. -/
theorem ofField_injective (language : Language) :
    Function.Injective (FieldEntry.ofField language) :=
  fun _ _ h => congrArg FieldEntry.member h

theorem reading_eq_iff (language : Language) (descriptor other : Descriptor) :
    reading language other = reading language descriptor ↔
      other.fieldNames = descriptor.fieldNames ∧
        (language = .rust → other.typeName = descriptor.typeName) := by
  rw [reading, reading, Reading.mk.injEq, List.map_inj_right fun _ _ h => ofField_injective _ h,
    and_comm]
  by_cases hrust : language = .rust <;> simp [hrust]

/-- A member shows the names of the fields and, in Rust, of the type, and nothing else of its
descriptor. -/
theorem layOut_congr (style : Style) (descriptor other : Descriptor)
    (hnames : other.fieldNames = descriptor.fieldNames)
    (htype : style.language = .rust → other.typeName = descriptor.typeName) :
    layOut style other = layOut style descriptor := by
  have hfront : frontLines style.language other.typeName style.baseIndent =
      frontLines style.language descriptor.typeName style.baseIndent := by
    cases hlanguage : style.language with
    | csharp => rfl
    | java => rfl
    | rust => rw [htype hlanguage]
  apply String.toList_injective
  rw [layOut_eq_parts, layOut_eq_parts, hnames, hfront]

end Member

/-- A valid descriptor has a member. Its text is the fixed front, one line for each field in
order and the fixed end; reading it gives each field's bare name as the label of the field itself,
with the separators; and another valid descriptor has the same text only for the same field names
in the same order and, in Rust, the same type name. -/
theorem generate_reads_back (style : Style) (descriptor : Descriptor)
    (h : descriptor.validate style.language = .ok ()) :
    ∃ member, descriptor.generate style = .ok member ∧
      member.text.toList = joinWith ['\n']
        ((Member.frame style.language descriptor style.baseIndent).map
          (writtenLine style.indent.toList)) ∧
      Member.read? style member.text.toList = some (Member.reading style.language descriptor) ∧
      ∀ other : Descriptor, other.validate style.language = .ok () →
        ∃ member', other.generate style = .ok member' ∧
          (member'.text = member.text ↔ other.fieldNames = descriptor.fieldNames ∧
            (style.language = .rust → other.typeName = descriptor.typeName)) := by
  have hread := Member.read?_layOut style descriptor h
  refine ⟨_, generate_of_validate style descriptor _ h, Member.layOut_eq_frame style descriptor,
    hread, ?_⟩
  intro other hother
  refine ⟨_, generate_of_validate style other _ hother, ?_⟩
  constructor
  · intro htext
    have hreading := Member.read?_layOut style other hother
    simp only at htext
    rw [htext, hread] at hreading
    exact (Member.reading_eq_iff _ _ _).1 (Option.some.inj hreading).symm
  · rintro ⟨hnames, htype⟩
    exact Member.layOut_congr style descriptor other hnames htype

/-- Escaped and accented names under an indentation that breaks lines. -/
theorem generate_reads_back_escapedNames :
    let style : Style := { language := .rust, indent := "\n\t", baseIndent := 1 }
    let descriptor : Descriptor :=
      { typeName := "r#box", fields := [⟨"r#type", "u8"⟩, ⟨"größe", "f64"⟩, ⟨"r#r", ""⟩] }
    descriptor.validate style.language = .ok () ∧
      ∃ member, descriptor.generate style = .ok member ∧
        Member.read? style member.text.toList =
          some { typeName := some "r#box",
                 entries := [⟨"type", ": ", "r#type", ", "⟩, ⟨"größe", ": ", "größe", ", "⟩,
                   ⟨"r", ": ", "r#r", ", "⟩] } := by
  intro style descriptor
  have hvalid : descriptor.validate style.language = .ok () := by decide
  obtain ⟨member, hmember, -, hread, -⟩ := generate_reads_back style descriptor hvalid
  refine ⟨hvalid, member, hmember, hread.trans ?_⟩
  rfl

end RecordText
