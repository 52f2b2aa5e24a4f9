import RecordText.Language.Identifier

/-!
# Escaped names

A name may stand behind the escape mark of its language. Taking the mark off is
a step of its own, which is also taken with names that no language accepts, so
it has to be shown that both fit together: no bare name starts with a mark, so
at most one mark is taken off, and the names that share a bare name are those
with and without the mark.

## Main statements

* `not_isPrefix_of_isBareForm`: a bare name does not start with an escape mark.
* `checkIdentifier_mark_iff`: which names can be escaped.
* `bareName_eq_iff`: which names have the same bare name.

## Implementation notes

An escaped name is not looked up among all reserved words, so it may be
accepted where its bare name is reserved. A bare name is therefore only known to
be well formed.
-/

namespace RecordText.Language

open RecordText.Text

/-- Whether a name has the right form: it is accepted, or it is a reserved word. -/
def IsWellFormed (language : Language) (name : String) : Prop :=
  language.checkIdentifier name = .ok () ∨ language.checkIdentifier name = .error .reserved

/-- Whether a name starts with the escape mark of the language. -/
def HasMark (language : Language) (name : String) : Prop :=
  ∃ mark, language.escapeMark = some mark ∧ mark <+: name.toList

/-- Whether a name is another name behind the escape mark of the language. -/
def Escapes (language : Language) (name plain : String) : Prop :=
  ∃ mark, language.escapeMark = some mark ∧ name = String.ofList mark ++ plain

section Marks

variable (language : Language)

theorem splitEscape_mark (mark text : List Char) (h : language.escapeMark = some mark) :
    language.splitEscape (mark ++ text) = (true, text) := by
  rw [splitEscape, h]
  simp only [behind?_append]

/-- What is split off is the escape mark, or nothing. -/
theorem splitEscape_cases (text : List Char) :
    (∃ mark bare, language.escapeMark = some mark ∧ text = mark ++ bare ∧
      language.splitEscape text = (true, bare)) ∨
    language.splitEscape text = (false, text) := by
  cases hmark : language.escapeMark with
  | none =>
      right
      rw [splitEscape, hmark]
  | some mark =>
      cases hbehind : behind? mark text with
      | none =>
          right
          simp only [splitEscape, hmark, hbehind]
      | some bare =>
          obtain rfl := (behind?_eq_some_iff mark text bare).1 hbehind
          exact .inl ⟨mark, bare, rfl, rfl, language.splitEscape_mark mark bare hmark⟩

/-- A bare name does not start with an escape mark: one mark is no start of a name, and the other
goes on with a sign that no name has. -/
theorem not_isPrefix_of_isBareForm (mark text : List Char) (hmark : language.escapeMark = some mark)
    (h : language.isBareForm text = true) : ¬ mark <+: text := by
  rintro ⟨rest, rfl⟩
  cases language with
  | csharp =>
      obtain rfl := Option.some.inj hmark
      have hstart : csharp.isNameStart '@' = false := by decide
      simp [isBareForm, hstart] at h
  | java => cases hmark
  | rust =>
      obtain rfl := Option.some.inj hmark
      have hrest : rust.isNameRest '#' = false := by decide
      simp [isBareForm, hrest] at h

theorem splitEscape_of_isBareForm (text : List Char) (h : language.isBareForm text = true) :
    language.splitEscape text = (false, text) := by
  rcases language.splitEscape_cases text with ⟨mark, bare, hmark, rfl, -⟩ | hsplit
  · exact absurd (List.prefix_append mark bare) (language.not_isPrefix_of_isBareForm _ _ hmark h)
  · exact hsplit

end Marks

section Names

variable (language : Language) (name : String)

/-- A name of the right form is only refused for being a reserved word. -/
theorem checkIdentifier_of_isBareForm
    (h : language.isBareForm (language.splitEscape name.toList).2 = true) :
    language.checkIdentifier name =
      if String.ofList (language.splitEscape name.toList).2 ∈
          language.reserved (language.splitEscape name.toList).1 then .error .reserved
      else .ok () := by
  have hne : ¬ name.isEmpty = true := by
    intro hempty
    rw [String.isEmpty_iff.1 hempty] at h
    cases language <;> cases h
  rw [checkIdentifier, if_neg hne]
  simp only [h, Bool.true_eq_false, if_false, List.contains_iff_mem]

theorem checkIdentifier_eq_ok_iff :
    language.checkIdentifier name = .ok () ↔
      language.isBareForm (language.splitEscape name.toList).2 = true ∧
        String.ofList (language.splitEscape name.toList).2 ∉
          language.reserved (language.splitEscape name.toList).1 := by
  constructor
  · intro h
    have hform := language.isBareForm_of_checkIdentifier name h
    rw [language.checkIdentifier_of_isBareForm name hform] at h
    split at h
    · cases h
    · rename_i hfree
      exact ⟨hform, hfree⟩
  · rintro ⟨hform, hfree⟩
    rw [language.checkIdentifier_of_isBareForm name hform, if_neg hfree]

/-- A name has the right form exactly if what stands behind its mark has the form of a bare name. -/
theorem isWellFormed_iff :
    language.IsWellFormed name ↔
      language.isBareForm (language.splitEscape name.toList).2 = true := by
  constructor
  · rintro (hok | hreserved)
    · exact language.isBareForm_of_checkIdentifier name hok
    · cases hform : language.isBareForm (language.splitEscape name.toList).2 with
      | true => rfl
      | false =>
          simp only [checkIdentifier, hform, if_true] at hreserved
          split at hreserved <;> cases hreserved
  · intro hform
    rw [IsWellFormed, language.checkIdentifier_of_isBareForm name hform]
    split
    · exact .inr rfl
    · exact .inl rfl

/-- The names that have the form of bare names are the well formed ones without a mark. -/
theorem isBareForm_iff_isWellFormed :
    language.isBareForm name.toList = true ↔
      language.IsWellFormed name ∧ ¬ language.HasMark name := by
  rw [isWellFormed_iff]
  constructor
  · intro h
    refine ⟨by rwa [language.splitEscape_of_isBareForm _ h], ?_⟩
    rintro ⟨mark, hmark, hprefix⟩
    exact language.not_isPrefix_of_isBareForm _ _ hmark h hprefix
  · rintro ⟨hform, hnone⟩
    rcases language.splitEscape_cases name.toList with ⟨mark, bare, hmark, hname, -⟩ | hsplit
    · exact absurd ⟨mark, hmark, bare, hname.symm⟩ hnone
    · rwa [hsplit] at hform

/-- A name can be escaped if it has the right form, no mark yet, and is no word that stays
reserved. -/
theorem checkIdentifier_mark_iff (mark : List Char) (h : language.escapeMark = some mark) :
    language.checkIdentifier (String.ofList mark ++ name) = .ok () ↔
      language.IsWellFormed name ∧ ¬ language.HasMark name ∧ name ∉ language.reserved true := by
  rw [checkIdentifier_eq_ok_iff, String.toList_append, String.toList_ofList,
    language.splitEscape_mark mark _ h, String.ofList_toList, isBareForm_iff_isWellFormed, and_assoc]

/-- A name is its bare name, or its bare name behind the mark. -/
theorem eq_bareName_or_escapes :
    name = language.bareName name ∨ language.Escapes name (language.bareName name) := by
  rcases language.splitEscape_cases name.toList with ⟨mark, bare, hmark, hname, hsplit⟩ | hsplit
  · refine .inr ⟨mark, hmark, ?_⟩
    rw [bareName, hsplit, ← String.ofList_append, ← hname, String.ofList_toList]
  · left
    rw [bareName, hsplit, String.ofList_toList]

theorem bareName_of_isBareForm (h : language.isBareForm name.toList = true) :
    language.bareName name = name := by
  rw [bareName, language.splitEscape_of_isBareForm _ h, String.ofList_toList]

variable {name}

theorem Escapes.bareName_eq {language : Language} {name plain : String}
    (h : language.Escapes name plain) : language.bareName name = plain := by
  obtain ⟨mark, hmark, rfl⟩ := h
  rw [bareName, String.toList_append, String.toList_ofList, language.splitEscape_mark _ _ hmark,
    String.ofList_toList]

theorem isBareForm_bareName (h : language.checkIdentifier name = .ok ()) :
    language.isBareForm (language.bareName name).toList = true := by
  rw [bareName, String.toList_ofList]
  exact language.isBareForm_of_checkIdentifier name h

/-- If an accepted name escapes another, the other has no mark to take off. -/
theorem bareName_of_escapes {plain : String} (h : language.checkIdentifier name = .ok ())
    (hescapes : language.Escapes name plain) : language.bareName plain = plain := by
  have hform := language.isBareForm_bareName h
  rw [hescapes.bareName_eq] at hform
  exact language.bareName_of_isBareForm plain hform

/-- Two accepted names have the same bare name only with and without the mark. -/
theorem bareName_eq_iff {other : String} (h : language.checkIdentifier name = .ok ())
    (hother : language.checkIdentifier other = .ok ()) :
    language.bareName name = language.bareName other ↔
      name = other ∨ language.Escapes name other ∨ language.Escapes other name := by
  constructor
  · intro heq
    rcases language.eq_bareName_or_escapes name with hname | hname
    · rcases language.eq_bareName_or_escapes other with hplain | hplain
      · exact .inl (hname.trans (heq.trans hplain.symm))
      · rw [← heq, ← hname] at hplain
        exact .inr (.inr hplain)
    · rcases language.eq_bareName_or_escapes other with hplain | hplain
      · rw [heq, ← hplain] at hname
        exact .inr (.inl hname)
      · obtain ⟨mark, hmark, hname⟩ := hname
        obtain ⟨mark', hmark', hplain⟩ := hplain
        obtain rfl := Option.some.inj (hmark.symm.trans hmark')
        exact .inl (hname.trans (by rw [heq, ← hplain]))
  · rintro (rfl | hescapes | hescapes)
    · rfl
    · rw [hescapes.bareName_eq, language.bareName_of_escapes h hescapes]
    · rw [hescapes.bareName_eq, language.bareName_of_escapes hother hescapes]

end Names

/-- A name can stand behind the mark of C# if it has the right form and no mark yet, and behind that
of Rust if it is none of five words either. The bare name of an accepted name is not empty, has the
right form without a mark, and is its own bare name. Two accepted names have the same bare name
exactly if they are equal or one is the other behind the mark. -/
theorem marks_fit_bareNames :
    (∀ name : String, csharp.checkIdentifier ("@" ++ name) = .ok () ↔
      csharp.IsWellFormed name ∧ ¬ ['@'] <+: name.toList) ∧
    (∀ name : String, rust.checkIdentifier ("r#" ++ name) = .ok () ↔
      rust.IsWellFormed name ∧ ¬ ['r', '#'] <+: name.toList ∧
        name ∉ ["_", "crate", "self", "Self", "super"]) ∧
    (∀ (language : Language) (name : String), language.checkIdentifier name = .ok () →
      language.bareName name ≠ "" ∧ language.IsWellFormed (language.bareName name) ∧
        ¬ language.HasMark (language.bareName name) ∧
        language.bareName (language.bareName name) = language.bareName name) ∧
    ∀ (language : Language) (name other : String), language.checkIdentifier name = .ok () →
      language.checkIdentifier other = .ok () →
      (language.bareName name = language.bareName other ↔
        name = other ∨ language.Escapes name other ∨ language.Escapes other name) := by
  refine ⟨?_, ?_, ?_, fun language name other => language.bareName_eq_iff⟩
  · intro name
    have hmark : csharp.HasMark name ↔ ['@'] <+: name.toList := by
      simp [HasMark, escapeMark]
    rw [← hmark]
    exact (csharp.checkIdentifier_mark_iff name ['@'] rfl).trans
      (by simp [reserved])
  · intro name
    have hmark : rust.HasMark name ↔ ['r', '#'] <+: name.toList := by
      simp [HasMark, escapeMark]
    rw [← hmark]
    exact rust.checkIdentifier_mark_iff name ['r', '#'] rfl
  · intro language name h
    have hform := language.isBareForm_bareName h
    obtain ⟨hformed, hnone⟩ := (language.isBareForm_iff_isWellFormed _).1 hform
    refine ⟨?_, hformed, hnone, language.bareName_of_isBareForm _ hform⟩
    intro hempty
    rw [hempty] at hform
    cases hform

/-- Two names of which one starts like the mark and the other is this one escaped. -/
theorem marks_fit_bareNames_border :
    (rust.checkIdentifier "r#r" = .ok () ∧ rust.checkIdentifier "r" = .ok ()) ∧
    rust.bareName "r#r" = "r" ∧ ¬ rust.HasMark (rust.bareName "r#r") ∧
    ("r#r" = "r" ∨ rust.Escapes "r#r" "r" ∨ rust.Escapes "r" "r#r") ∧
    rust.checkIdentifier "r#r#r" ≠ .ok () ∧ csharp.checkIdentifier "@@x" ≠ .ok () := by
  have haccepted : rust.checkIdentifier "r#r" = .ok () ∧ rust.checkIdentifier "r" = .ok () :=
    ⟨rfl, rfl⟩
  obtain ⟨hcsharp, hrust, hplain, hsame⟩ := marks_fit_bareNames
  obtain ⟨-, -, hnone, -⟩ := hplain rust _ haccepted.1
  have hbare : rust.bareName "r#r" = rust.bareName "r" := by decide
  refine ⟨haccepted, hbare, hnone, (hsame rust _ _ haccepted.1 haccepted.2).1 hbare, ?_, ?_⟩
  · intro h
    exact ((hrust "r#r").1 h).2.1 (by decide)
  · intro h
    exact ((hcsharp "@x").1 h).2 (by decide)

end RecordText.Language
