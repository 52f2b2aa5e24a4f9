import RecordText.Proofs.EscapedNames
import RecordText.Proofs.Nesting
import RecordText.Source.Declaration
import Mathlib.Data.List.TakeWhile

/-!
# The form of names and class headers

Blanks, braces and semicolons are no characters of a name. A name is therefore
read up to the first such sign, and a class header is read in exactly one way:
the word `class`, all blanks behind it, and a name that goes as far as possible.
-/

namespace RecordText.Source

open RecordText.Text

/-- What holds of every character of a text is decided along the text, not along all characters. -/
instance decidableForallText (text : List Char) (p : Char → Prop) [DecidablePred p] :
    Decidable (∀ c ∈ text, p c) :=
  List.decidableBAll p text

/-- What holds of a character, if there is one, is decided at that character. -/
instance decidableForallSign (sign : Option Char) (p : Char → Prop) [DecidablePred p] :
    Decidable (∀ c ∈ sign, p c) :=
  sign.decidableForallMem

/-- The blank characters, one by one. -/
def blankChars : List Char :=
  [0x9, 0xA, 0xB, 0xC, 0xD, 0x20, 0x85, 0xA0, 0x1680, 0x2000, 0x2001, 0x2002, 0x2003, 0x2004,
    0x2005, 0x2006, 0x2007, 0x2008, 0x2009, 0x200A, 0x2028, 0x2029, 0x202F, 0x205F, 0x3000].map
    Char.ofNat

theorem mem_blankChars (c : Char) (h : isBlank c = true) : c ∈ blankChars := by
  have hc : c = Char.ofNat c.toNat := (Char.ofNat_toNat c).symm
  simp only [isBlank, Bool.or_eq_true, Bool.and_eq_true, decide_eq_true_eq, beq_iff_eq] at h
  rw [hc]
  apply List.mem_map_of_mem
  simp only [List.mem_cons, List.not_mem_nil, or_false]
  omega

theorem not_isWordChar_of_isBlank (c : Char) (h : isBlank c = true) : isWordChar c = false := by
  have hall : ∀ c ∈ blankChars, isWordChar c = false := by decide +kernel
  exact hall c (mem_blankChars c h)

theorem not_isNumeral_of_isBlank (c : Char) (h : isBlank c = true) : isNumeral c = false := by
  have hall : ∀ c ∈ blankChars, isNumeral c = false := by decide +kernel
  exact hall c (mem_blankChars c h)

theorem not_isBlank_of_isWordChar (c : Char) (h : isWordChar c = true) : isBlank c = false := by
  by_contra hblank
  rw [not_isWordChar_of_isBlank c (by simpa using hblank)] at h
  cases h

/-- A blank differs from every character that is none. -/
theorem ne_of_isBlank (c d : Char) (hc : isBlank c = true) (hd : isBlank d = false) : c ≠ d := by
  rintro rfl
  rw [hc] at hd
  cases hd

/-- A character of words differs from every character that is none. -/
theorem ne_of_isWordChar (c d : Char) (hc : isWordChar c = true) (hd : isWordChar d = false) :
    c ≠ d := by
  rintro rfl
  rw [hc] at hd
  cases hd

theorem isNameRest_iff (c : Char) :
    Language.csharp.isNameRest c = true ↔ isLetter c = true ∨ isNumeral c = true ∨ c = '_' := by
  simp [Language.isNameRest, Language.isExtraNameChar, or_assoc]

/-- A blank ends a name. -/
theorem not_isNameRest_of_isBlank (c : Char) (h : isBlank c = true) :
    Language.csharp.isNameRest c = false := by
  rw [Bool.eq_false_iff, Ne, isNameRest_iff]
  have hword := not_isWordChar_of_isBlank c h
  rintro (hletter | hnumeral | rfl)
  · rw [isWordChar_of_isLetter c hletter] at hword
    cases hword
  · rw [not_isNumeral_of_isBlank c h] at hnumeral
    cases hnumeral
  · revert h
    decide

/-- A brace or a semicolon ends a name. -/
theorem not_isNameRest_of_isStop (c : Char) (h : isStop c = true) :
    Language.csharp.isNameRest c = false := by
  simp only [isStop, Bool.or_eq_true, beq_iff_eq] at h
  rcases h with (rfl | rfl) | rfl <;> decide

theorem not_isBlank_of_isStop (c : Char) (h : isStop c = true) : isBlank c = false := by
  simp only [isStop, Bool.or_eq_true, beq_iff_eq] at h
  rcases h with (rfl | rfl) | rfl <;> decide

theorem not_isNameRest_at : Language.csharp.isNameRest '@' = false := by decide

@[simp] theorem splitEscape_at (rest : List Char) :
    Language.csharp.splitEscape ('@' :: rest) = (true, rest) :=
  Language.csharp.splitEscape_mark ['@'] rest rfl

/-- A name without its at sign is not empty and made of the characters of names. -/
theorem isBareForm_iff (text : List Char) :
    Language.csharp.isBareForm text = true ↔ ∃ c rest, text = c :: rest ∧
      Language.csharp.isNameStart c = true ∧ ∀ d ∈ rest, Language.csharp.isNameRest d = true := by
  cases text with
  | nil => simp [Language.isBareForm]
  | cons c rest => simp [Language.isBareForm, List.all_eq_true]

theorem ne_at_of_isNameStart (c : Char) (h : Language.csharp.isNameStart c = true) : c ≠ '@' := by
  rintro rfl
  revert h
  decide

/-- A name is a bare name, with or without an at sign. -/
theorem isName_iff (name : List Char) :
    isName name = true ↔ ∃ bare, (name = bare ∨ name = '@' :: bare) ∧
      Language.csharp.isBareForm bare = true := by
  constructor
  · intro h
    rcases Language.csharp.splitEscape_cases name with ⟨mark, bare, hmark, rfl, hsplit⟩ | hsplit
    · obtain rfl := Option.some.inj hmark
      rw [isName, hsplit] at h
      exact ⟨bare, Or.inr rfl, h⟩
    · rw [isName, hsplit] at h
      exact ⟨name, Or.inl rfl, h⟩
  · rintro ⟨bare, rfl | rfl, h⟩
    · rwa [isName, Language.csharp.splitEscape_of_isBareForm _ h]
    · rwa [isName, splitEscape_at]

theorem mem_isName (name : List Char) (h : isName name = true) (c : Char) (hc : c ∈ name) :
    c = '@' ∨ Language.csharp.isNameRest c = true := by
  obtain ⟨bare, hname, hbare⟩ := (isName_iff name).1 h
  obtain ⟨d, rest, rfl, hd, hrest⟩ := (isBareForm_iff bare).1 hbare
  have hall : ∀ x ∈ d :: rest, Language.csharp.isNameRest x = true := by
    rintro x (_ | ⟨_, hx⟩)
    · exact Language.isNameRest_of_isNameStart _ d hd
    · exact hrest x hx
  rcases hname with rfl | rfl
  · exact Or.inr (hall c hc)
  · rcases List.mem_cons.1 hc with rfl | hc
    · exact Or.inl rfl
    · exact Or.inr (hall c hc)

theorem not_isBlank_of_mem_isName (name : List Char) (h : isName name = true) (c : Char)
    (hc : c ∈ name) : isBlank c = false := by
  rcases mem_isName name h c hc with rfl | hrest
  · decide
  · by_contra hblank
    rw [not_isNameRest_of_isBlank c (by simpa using hblank)] at hrest
    cases hrest

theorem takeWhile_dropWhile_of_stop {p : Char → Bool} (front back : List Char)
    (hfront : ∀ c ∈ front, p c = true) (hback : ∀ c ∈ back.head?, p c = false) :
    (front ++ back).takeWhile p = front ∧ (front ++ back).dropWhile p = back := by
  rw [List.takeWhile_append_of_pos hfront, List.dropWhile_append_of_pos hfront]
  cases back with
  | nil => simp
  | cons c back =>
      have hc : p c = false := hback c rfl
      simp [hc]

/-- A name is read as far as it goes. -/
theorem readName?_of_isName (name rest : List Char) (hname : isName name = true)
    (hrest : ∀ c ∈ rest.head?, Language.csharp.isNameRest c = false) :
    readName? (name ++ rest) = some (name, rest) := by
  obtain ⟨bare, hbare, hform⟩ := (isName_iff name).1 hname
  obtain ⟨d, tail, rfl, hd, htail⟩ := (isBareForm_iff bare).1 hform
  obtain ⟨htake, hdrop⟩ := takeWhile_dropWhile_of_stop tail rest htail hrest
  rcases hbare with rfl | rfl
  · have hat := ne_at_of_isNameStart d hd
    rw [List.cons_append, readName?]
    · simp [hd, htake, hdrop]
    · rintro _ _ rfl
      contradiction
  · simp [readName?, hd, htake, hdrop]

theorem head?_dropWhile_isNameRest (text : List Char) :
    ∀ c ∈ (text.dropWhile Language.csharp.isNameRest).head?,
      Language.csharp.isNameRest c = false := by
  intro c hc
  have hhead := List.head?_dropWhile_not Language.csharp.isNameRest text
  rw [Option.mem_def.1 hc] at hhead
  simpa using hhead

theorem isBareForm_takeWhile (c : Char) (rest : List Char)
    (h : Language.csharp.isNameStart c = true) :
    Language.csharp.isBareForm (c :: rest.takeWhile Language.csharp.isNameRest) = true := by
  rw [isBareForm_iff]
  exact ⟨c, _, rfl, h, fun d hd => List.mem_takeWhile_imp hd⟩

/-- What is read is a name, and it goes no further. -/
theorem readName?_eq_some (text : List Char) (found : Cut) (h : readName? text = some found) :
    isName found.1 = true ∧ ∀ c ∈ found.2.head?, Language.csharp.isNameRest c = false := by
  unfold readName? at h
  split at h
  · split at h
    · rename_i c rest hstart
      cases h
      exact ⟨(isName_iff _).2 ⟨_, Or.inr rfl, isBareForm_takeWhile c rest hstart⟩,
        head?_dropWhile_isNameRest rest⟩
    · cases h
  · split at h
    · rename_i c rest _ hstart
      cases h
      exact ⟨(isName_iff _).2 ⟨_, Or.inl rfl, isBareForm_takeWhile c rest hstart⟩,
        head?_dropWhile_isNameRest rest⟩
    · cases h
  · cases h

/-- A header in its parts: blanks behind the word `class`, and a name that goes no further. -/
structure HeaderMatch.WellFormed (found : HeaderMatch) : Prop where
  gap_ne_nil : found.gap ≠ []
  gap_blank : ∀ c ∈ found.gap, isBlank c = true
  name_form : isName found.name = true
  name_end : ∀ c ∈ found.rest.head?, Language.csharp.isNameRest c = false

/-- A name starts with a sign that is no blank. -/
theorem head?_isName (name rest : List Char) (h : isName name = true) :
    ∀ c ∈ (name ++ rest).head?, isBlank c = false := by
  obtain ⟨bare, hname, hform⟩ := (isName_iff name).1 h
  obtain ⟨d, tail, rfl, hd, -⟩ := (isBareForm_iff bare).1 hform
  have hblank : isBlank d = false := by
    by_contra hblank
    have hrest := not_isNameRest_of_isBlank d (by simpa using hblank)
    rw [Language.isNameRest_of_isNameStart _ d hd] at hrest
    cases hrest
  rcases hname with rfl | rfl
  · simpa using hblank
  · simp
    decide

/-- The header at the front of a text is read in its parts. -/
theorem readHeader?_eq_some_iff (text : List Char) (found : HeaderMatch) :
    readHeader? text = some found ↔ text = found.text ++ found.rest ∧ found.WellFormed := by
  constructor
  · intro h
    refine ⟨(readHeader?_append text found h).symm, ?_⟩
    unfold readHeader? at h
    split at h
    · cases h
    · rename_i behind hbehind
      dsimp only at h
      split at h
      · cases h
      · rename_i hgap
        obtain ⟨name, hname, rfl⟩ := Option.map_eq_some_iff.1 h
        obtain ⟨hform, hend⟩ := readName?_eq_some _ name hname
        exact ⟨by simpa using hgap, fun c hc => List.mem_takeWhile_imp hc, hform, hend⟩
  · rintro ⟨rfl, hne, hblank, hform, hend⟩
    obtain ⟨htake, hdrop⟩ := takeWhile_dropWhile_of_stop found.gap (found.name ++ found.rest)
      hblank (head?_isName found.name found.rest hform)
    have hbehind : behind? classWord (found.text ++ found.rest) =
        some (found.gap ++ (found.name ++ found.rest)) := by
      rw [behind?_eq_some_iff]
      simp [HeaderMatch.text]
    have hname := readName?_of_isName found.name found.rest hform hend
    simp only [readHeader?, hbehind, htake, hdrop, hname, List.isEmpty_iff, hne, if_false,
      Option.map_some]

/-- No stop stands in a header. -/
theorem not_isStop_of_mem_text (found : HeaderMatch) (h : found.WellFormed) (c : Char)
    (hc : c ∈ found.text) : isStop c = false := by
  by_contra hstop
  have hstop : isStop c = true := by simpa using hstop
  simp only [HeaderMatch.text, List.mem_append] at hc
  rcases hc with (hword | hgap) | hname
  · revert hstop
    simp only [classWord, List.mem_cons, List.not_mem_nil, or_false] at hword
    rcases hword with rfl | rfl | rfl | rfl | rfl <;> decide
  · have hblank := not_isBlank_of_isStop c hstop
    rw [h.gap_blank c hgap] at hblank
    cases hblank
  · rcases mem_isName found.name h.name_form c hname with rfl | hrest
    · revert hstop
      decide
    · rw [not_isNameRest_of_isStop c hstop] at hrest
      cases hrest

end RecordText.Source
