import RecordText.Proofs.CompletedOutline
import RecordText.Proofs.InsertionPlace
import RecordText.Proofs.Masking
import RecordText.Proofs.MemberLines
import RecordText.Proofs.UnfinishedPieces

/-!
# The masked form of an inserted member

The generated member opens and closes every literal that it holds, so it is
masked in the same way wherever it is inserted. Its masked form is the text of
one override. A member that goes in front of a closing brace therefore changes
the masked text at this place only.
-/

namespace RecordText.Source

open RecordText.Text
open RecordText.Edit

/-- A text is masked in the same way wherever it stands. -/
def MasksTo (text masked : List Char) : Prop :=
  ∀ before rest, maskFrom before (text ++ rest) = masked ++ maskFrom (text.reverse ++ before) rest

theorem MasksTo.of_plain (text : List Char) (h : ∀ c ∈ text, opensTrivia c = false) :
    MasksTo text text :=
  fun before rest => maskFrom_append_of_plain before text rest h

theorem MasksTo.append {front back maskedFront maskedBack : List Char}
    (hfront : MasksTo front maskedFront) (hback : MasksTo back maskedBack) :
    MasksTo (front ++ back) (maskedFront ++ maskedBack) := by
  intro before rest
  rw [List.append_assoc, hfront, hback]
  simp

theorem literalTail_of_closed (inside rest : List Char)
    (h : ∀ c ∈ inside, c ≠ '"' ∧ c ≠ '\\' ∧ c ≠ '\n') :
    literalTail '"' (inside ++ '"' :: rest) = (inside ++ ['"'], rest) := by
  induction inside with
  | nil => rw [List.nil_append, literalTail_cons _ _ _ (by decide), if_pos rfl, List.nil_append]
  | cons c inside ih =>
      obtain ⟨hquote, hslash, hfeed⟩ := h c (by simp)
      rw [List.cons_append, literalTail_cons _ c _ hslash, if_neg hquote, if_neg hfeed,
        ih fun d hd => h d (by simp [hd])]
      rfl

/-- A string literal behind an opening parenthesis is blanked out. -/
theorem MasksTo.literal (c : Char) (inside : List Char)
    (h : ∀ d ∈ c :: inside, d ≠ '"' ∧ d ≠ '\\' ∧ d ≠ '\n') :
    MasksTo ('(' :: '"' :: (c :: inside ++ ['"']))
      ('(' :: ('"' :: (c :: inside ++ ['"'])).flatMap blankOut) := by
  intro before rest
  have hrun : ¬ 2 ≤ quoteRun (c :: inside ++ '"' :: rest) := by
    simp [quoteRun, (h c (by simp)).1]
  have htoken : firstToken ('(' :: before) '"' (c :: inside ++ '"' :: rest) =
      (.trivia .string ('"' :: (c :: inside ++ ['"'])), rest) := by
    change stringToken ('(' :: before) (c :: inside ++ '"' :: rest) = _
    have hverbatim : opensVerbatim ('(' :: before) = false := rfl
    simp only [stringToken, hverbatim, Bool.false_eq_true, if_false, if_neg hrun]
    rw [literalTail_of_closed (c :: inside) rest h]
    rfl
  have hparen := maskFrom_append_of_plain before ['(']
    ('"' :: (c :: inside ++ '"' :: rest)) (by decide)
  simp only [List.singleton_append, List.reverse_singleton] at hparen
  have hsplit : '(' :: '"' :: (c :: inside ++ ['"']) ++ rest =
      '(' :: '"' :: (c :: inside ++ '"' :: rest) := by simp
  rw [hsplit, hparen, maskFrom, cut, htoken, List.flatMap_cons]
  simp [maskFrom, Token.masked, Token.text]

/-- Masked code that fills a line: one statement that declares nothing, and no header. -/
structure IsCodeLine (line : List Char) : Prop where
  clear : ClearOfHeaders line
  statement : ∃ piece, line = piece ++ [';'] ∧ (∀ c ∈ piece, isStop c = false) ∧
    Segment.declared? { text := piece, terminator := .semicolon } = none

theorem IsCodeLine.plain {line : List Char} (h : IsCodeLine line) :
    ∀ c ∈ line, c ≠ '\x7b' ∧ c ≠ '\x7d' := by
  obtain ⟨piece, rfl, hpiece, -⟩ := h.statement
  intro c hc
  rcases List.mem_append.1 hc with hin | hin
  · have hstop := hpiece c hin
    simp only [isStop, Bool.or_eq_false_iff, beq_eq_false_iff_ne] at hstop
    exact hstop.1
  · obtain rfl := List.mem_singleton.1 hin
    decide

theorem IsCodeLine.ends {line : List Char} (h : IsCodeLine line) : 's' ∉ line.getLast? := by
  obtain ⟨piece, rfl, -, -⟩ := h.statement
  simp

/-- A line of code declares nothing. -/
theorem IsCodeLine.declares {line : List Char} (h : IsCodeLine line) : Declares line [] := by
  obtain ⟨piece, rfl, hpiece, hnone⟩ := h.statement
  have hdeclares := Declares.statement piece hpiece
  rwa [hnone] at hdeclares

theorem not_opensTrivia_of_isBlank (c : Char) (h : isBlank c = true) : opensTrivia c = false := by
  by_contra hopens
  simp only [opensTrivia, Bool.not_eq_false, Bool.or_eq_true, beq_iff_eq] at hopens
  rcases hopens with ((rfl | rfl) | rfl) | rfl <;> revert h <;> decide

theorem not_opensTrivia_of_mem_isName (name : List Char) (h : isName name = true) (c : Char)
    (hc : c ∈ name) : opensTrivia c = false := by
  rcases mem_isName name h c hc with rfl | hrest
  · decide
  · by_contra hopens
    simp only [opensTrivia, Bool.not_eq_false, Bool.or_eq_true, beq_iff_eq] at hopens
    rcases hopens with ((rfl | rfl) | rfl) | rfl <;> revert hrest <;> decide

theorem not_isStop_of_mem_isName (name : List Char) (h : isName name = true) (c : Char)
    (hc : c ∈ name) : isStop c = false := by
  rcases mem_isName name h c hc with rfl | hrest
  · decide
  · by_contra hstop
    rw [not_isNameRest_of_isStop c (by simpa using hstop)] at hrest
    cases hrest

theorem clearOfHeaders_of_not_isBlank (text : List Char) (h : ∀ c ∈ text, isBlank c = false) :
    ClearOfHeaders text := by
  induction text with
  | nil => exact List.IsChain.nil
  | cons c rest ih =>
      have hrest : ClearOfHeaders rest := ih fun d hd => h d (by simp [hd])
      cases rest with
      | nil => exact List.IsChain.singleton c
      | cons d rest => exact List.isChain_cons_cons.2 ⟨fun _ => h d (by simp), hrest⟩

/-- Blanks in front of code do not change what kind of line it is. -/
theorem IsCodeLine.append_blanks {blanks line : List Char} (h : IsCodeLine line)
    (hblanks : ∀ c ∈ blanks, isBlank c = true) : IsCodeLine (blanks ++ line) := by
  constructor
  · have hs : 's' ∉ blanks := not_mem_of_isBlank _ _ hblanks (by decide)
    refine (clearOfHeaders_of_not_mem _ hs).append h.clear (Or.inl ?_)
    intro hlast
    exact hs (List.mem_of_getLast? hlast)
  · obtain ⟨piece, rfl, hpiece, hnone⟩ := h.statement
    refine ⟨blanks ++ piece, by simp, ?_, ?_⟩
    · exact List.forall_mem_append.2 ⟨fun c hc => not_isStop_of_isBlank c (hblanks c hc), hpiece⟩
    · simpa only [Segment.declared?, skipAttributes_blanks blanks piece hblanks] using hnone

/-- The masked line that prints one field, up to the field's name. -/
def maskedOpening : List Char :=
  "result.AppendFormat(".toList ++
    ("\"\x7b0\x7d: \x7b1\x7d, \"".toList.flatMap blankOut ++ ", nameof(".toList)

/-- The masked form of the line that prints one field. -/
def maskedEntry (name : List Char) : List Char :=
  maskedOpening ++ (name ++ (entryMiddle ++ (name ++ entryEnd)))

theorem masksTo_entryOpening : MasksTo entryOpening maskedOpening := by
  have hopening : entryOpening = "result.AppendFormat".toList ++
      (('(' :: '"' :: ('\x7b' :: "0\x7d: \x7b1\x7d, ".toList ++ ['"'])) ++ ", nameof(".toList) := by
    decide
  have hmasked : maskedOpening = "result.AppendFormat".toList ++
      (('(' :: ('"' :: ('\x7b' :: "0\x7d: \x7b1\x7d, ".toList ++ ['"'])).flatMap blankOut) ++
        ", nameof(".toList) := by
    decide
  rw [hopening, hmasked]
  apply MasksTo.append (MasksTo.of_plain _ (by decide))
  apply MasksTo.append (MasksTo.literal _ _ (by decide))
  exact MasksTo.of_plain _ (by decide)

theorem masksTo_csharpEntry (name : String) (h : isName name.toList = true) :
    MasksTo (Member.csharpEntry name).toList (maskedEntry name.toList) := by
  have hplain : MasksTo name.toList name.toList :=
    MasksTo.of_plain _ (not_opensTrivia_of_mem_isName _ h)
  have hmiddle : MasksTo entryMiddle entryMiddle := MasksTo.of_plain _ (by decide)
  have hend : MasksTo entryEnd entryEnd := MasksTo.of_plain _ (by decide)
  rw [csharpEntry_toList]
  exact masksTo_entryOpening.append (hplain.append (hmiddle.append (hplain.append hend)))

/-- The masked line that prints one field, up to its semicolon. -/
def maskedEntryPiece (name : List Char) : List Char :=
  maskedOpening ++ (name ++ (entryMiddle ++ (name ++ [')'])))

theorem maskedEntry_eq (name : List Char) : maskedEntry name = maskedEntryPiece name ++ [';'] := by
  have hend : entryEnd = [')'] ++ [';'] := by decide
  rw [maskedEntry, hend, maskedEntryPiece]
  simp only [List.append_assoc]

theorem not_mem_maskedEntryPiece (name : List Char) (hname : isName name = true) (c : Char)
    (hfixed : c ∉ maskedOpening ++ entryMiddle ++ [')']) (hat : c ≠ '@')
    (hrest : Language.csharp.isNameRest c = false) : c ∉ maskedEntryPiece name := by
  have hin : c ∉ name := by
    intro hin
    rcases mem_isName name hname c hin with heq | hin
    · exact hat heq
    · rw [hrest] at hin
      cases hin
  intro hc
  apply hfixed
  simp only [maskedEntryPiece, List.mem_append, hin, false_or] at hc
  simpa [or_assoc] using hc

/-- The parenthesis of the line that prints one field is not closed at once. -/
theorem overridesToString_maskedEntryPiece (name : List Char) :
    overridesToString (maskedEntryPiece name) = false := by
  obtain ⟨behind, hbehind, hcomma⟩ : ∃ behind, maskedOpening =
      "result.AppendFormat".toList ++ '(' :: behind ∧ (trimStart behind).head? = some ',' :=
    ⟨maskedOpening.drop 20, by decide, by decide⟩
  have hsplit : maskedEntryPiece name = "result.AppendFormat".toList ++
      '(' :: (behind ++ (name ++ (entryMiddle ++ (name ++ [')'])))) := by
    rw [maskedEntryPiece, hbehind, List.append_assoc, List.cons_append]
  obtain ⟨rest, hrest⟩ : ∃ rest, trimStart behind = ',' :: rest := by
    cases hcase : trimStart behind with
    | nil => simp [hcase] at hcomma
    | cons c rest => exact ⟨rest, by simpa [hcase] using hcomma⟩
  rw [hsplit, overridesToString_of_paren _ _ (by decide),
    trimStart_append_of_cons behind _ rest ',' hrest, closesFirst_cons]
  rfl

/-- The last word of the line that prints one field is no name. -/
theorem readProperty?_maskedEntryPiece (name : List Char) (hname : isName name = true) :
    readProperty? (maskedEntryPiece name) = none := by
  have hequals : '=' ∉ maskedEntryPiece name :=
    not_mem_maskedEntryPiece name hname '=' (by decide +kernel) (by decide) (by decide +kernel)
  have hsplit : maskedEntryPiece name = maskedOpening ++ (name ++ "),".toList) ++
      ' ' :: ("this.".toList ++ (name ++ [')'])) := by
    have hmiddle : entryMiddle = "),".toList ++ (' ' :: "this.".toList) := by decide
    rw [maskedEntryPiece, hmiddle]
    simp only [List.append_assoc, List.cons_append]
  rw [hsplit] at hequals ⊢
  apply readProperty?_eq_none_of_lastWord _ _ ' ' hequals rfl (by simp)
  · have hfixed : ∀ c ∈ "this.)".toList, isBlank c = false := by decide
    intro c hc
    by_cases hin : c ∈ name
    · exact not_isBlank_of_mem_isName name hname c hin
    · apply hfixed c
      simp only [List.mem_append, hin, false_or] at hc
      simpa [or_assoc] using hc
  · by_contra hform
    have hparen := mem_isName _ (by simpa using hform) ')' (by simp)
    revert hparen
    decide +kernel

/-- The line that prints one field declares nothing. -/
theorem declared?_maskedEntryPiece (name : List Char) (hname : isName name = true) :
    Segment.declared? { text := maskedEntryPiece name, terminator := .semicolon } = none := by
  have hopening : maskedOpening = 'r' :: maskedOpening.tail := by decide
  have hskip : skipAttributes (maskedEntryPiece name) = maskedEntryPiece name := by
    rw [maskedEntryPiece, hopening]
    exact skipAttributes_append_blanks [] 'r' _ (by simp) (by decide) (by decide)
  have htrim : trimEnd (maskedEntryPiece name) = maskedEntryPiece name := by
    have hlast : (maskedEntryPiece name).getLast? = some ')' := by simp [maskedEntryPiece]
    have hend := trimEnd_append_blanks (maskedEntryPiece name) [] (by simp)
      (by simpa [hlast] using (show isBlank ')' = false by decide))
    rwa [List.append_nil] at hend
  rw [declared?_of_not_override _ (maskedEntryPiece name) (by rw [hskip, htrim])
    (by simp [maskedEntryPiece]) (overridesToString_maskedEntryPiece name),
    readProperty?_maskedEntryPiece name hname]
  rfl

theorem isCodeLine_maskedEntry (name : List Char) (h : isName name = true) :
    IsCodeLine (maskedEntry name) := by
  constructor
  · have hname : ClearOfHeaders name :=
      clearOfHeaders_of_not_isBlank _ (not_isBlank_of_mem_isName name h)
    have hopening : ClearOfHeaders maskedOpening := by
      unfold ClearOfHeaders
      decide
    have hmiddle : ClearOfHeaders entryMiddle := by
      unfold ClearOfHeaders
      decide
    have hend : ClearOfHeaders entryEnd := by
      unfold ClearOfHeaders
      decide
    have hback : ClearOfHeaders (name ++ entryEnd) := hname.append hend (Or.inr (by decide))
    have hrest := hmiddle.append hback (Or.inl (by decide))
    have hparen : ∀ c ∈ (entryMiddle ++ (name ++ entryEnd)).head?, isBlank c = false := by
      have hsplit : entryMiddle = ')' :: entryMiddle.tail := by decide
      rw [hsplit, List.cons_append, List.head?_cons]
      simpa using (show isBlank ')' = false by decide)
    have hentry := hname.append hrest (Or.inr hparen)
    exact hopening.append hentry (Or.inl (by decide))
  · refine ⟨maskedEntryPiece name, maskedEntry_eq name, ?_, declared?_maskedEntryPiece name h⟩
    have hfixed : ∀ c ∈ maskedOpening ++ entryMiddle ++ [')'], isStop c = false := by decide
    intro c hc
    by_cases hin : c ∈ name
    · exact not_isStop_of_mem_isName name h c hin
    · apply hfixed c
      simp only [maskedEntryPiece, List.mem_append, hin, false_or] at hc
      simpa [or_assoc] using hc

/-- Every line inside the member's block is masked to a line of code. -/
theorem exists_masked_bodyLine (names : List String)
    (hnames : ∀ name ∈ names, isName name.toList = true) (line : String)
    (h : line ∈ csharpBodyLines names) :
    ∃ masked, MasksTo line.toList masked ∧ IsCodeLine masked := by
  simp only [csharpBodyLines, List.mem_cons, List.mem_append, List.mem_map, List.not_mem_nil,
    or_false] at h
  rcases h with rfl | ⟨name, hname, rfl⟩ | rfl
  · refine ⟨_, MasksTo.of_plain _ (by decide), ?_, "var result = new ".toList ++
      "System.Text.StringBuilder()".toList, by decide, by decide, by decide +kernel⟩
    unfold ClearOfHeaders
    decide
  · have hform := hnames name hname
    exact ⟨_, masksTo_csharpEntry name hform, isCodeLine_maskedEntry _ hform⟩
  · refine ⟨_, MasksTo.of_plain _ (by decide), ?_, "return result.ToString()".toList, by decide,
      by decide, by decide +kernel⟩
    unfold ClearOfHeaders
    decide

/-- Lines of code one after the other hold no brace and no header and declare nothing. -/
theorem exists_masked_flatMap {α : Type} (items : List α) (text : α → List Char)
    (h : ∀ item ∈ items, ∃ masked, MasksTo (text item) masked ∧ IsCodeLine masked) :
    ∃ masked, MasksTo (items.flatMap text) masked ∧ (∀ c ∈ masked, c ≠ '\x7b' ∧ c ≠ '\x7d') ∧
      ClearOfHeaders masked ∧ 's' ∉ masked.getLast? ∧ Declares masked [] := by
  induction items with
  | nil =>
      refine ⟨[], ?_, by simp, List.IsChain.nil, by simp, rfl, by simp [byteLength]⟩
      exact MasksTo.of_plain [] (by simp)
  | cons item items ih =>
      obtain ⟨first, hfirst, hline⟩ := h item (by simp)
      obtain ⟨rest, hrest, hplain, hclear, hlast, hdeclares⟩ :=
        ih fun other hother => h other (by simp [hother])
      refine ⟨first ++ rest, hfirst.append hrest, List.forall_mem_append.2 ⟨hline.plain, hplain⟩,
        hline.clear.append hclear (Or.inl hline.ends), ?_, hline.declares.append hdeclares⟩
      rw [List.getLast?_append]
      cases hcase : rest.getLast? with
      | none => simpa using hline.ends
      | some c => simpa [hcase] using hlast

theorem MasksTo.of_blank (text : List Char) (h : ∀ c ∈ text, isBlank c = true) :
    MasksTo text text :=
  MasksTo.of_plain text fun c hc => not_opensTrivia_of_isBlank c (h c hc)

/-- What stands between the braces of an inserted member holds no brace and no header and declares
nothing, once it is masked. -/
theorem exists_masked_indentedBody (unit indent newline : List Char) (names : List String)
    (hunit : ∀ c ∈ unit, isBlank c = true) (hindent : ∀ c ∈ indent, isBlank c = true)
    (hnewline : ∀ c ∈ newline, isBlank c = true)
    (hnames : ∀ name ∈ names, isName name.toList = true) :
    ∃ body, MasksTo (indentedBody unit indent newline names) body ∧
      (∀ c ∈ body, c ≠ '\x7b' ∧ c ≠ '\x7d') ∧ ClearOfHeaders body ∧
      ∀ offset, (walk 0 [] offset body).segments.filterMap Segment.declared? = [] := by
  have hlines : ∀ line ∈ csharpBodyLines names,
      ∃ masked, MasksTo (newline ++ (indent ++ (unit ++ line.toList))) masked ∧
        IsCodeLine masked := by
    intro line hline
    obtain ⟨masked, hmasked, hcode⟩ := exists_masked_bodyLine names hnames line hline
    refine ⟨newline ++ (indent ++ (unit ++ masked)), ?_, ?_⟩
    · exact (MasksTo.of_blank _ hnewline).append
        ((MasksTo.of_blank _ hindent).append ((MasksTo.of_blank _ hunit).append hmasked))
    · exact ((hcode.append_blanks hunit).append_blanks hindent).append_blanks hnewline
  obtain ⟨masked, hmasked, hplain, hclear, hlast, hdeclares⟩ := exists_masked_flatMap _ _ hlines
  have hend : ∀ c ∈ newline ++ indent, isBlank c = true :=
    List.forall_mem_append.2 ⟨hnewline, hindent⟩
  refine ⟨masked ++ (newline ++ indent), hmasked.append (MasksTo.of_blank _ hend), ?_, ?_, ?_⟩
  · exact List.forall_mem_append.2 ⟨hplain, fun c hc => not_brace_of_isBlank c (hend c hc)⟩
  · have hs : 's' ∉ newline ++ indent := not_mem_of_isBlank _ _ hend (by decide)
    exact hclear.append (clearOfHeaders_of_not_mem _ hs) (Or.inl hlast)
  · intro offset
    have hrest := walk_zero_piece [] (offset + byteLength masked) (newline ++ indent) []
      fun c hc => not_isStop_of_isBlank c (hend c hc)
    rw [List.append_nil, walk_nil] at hrest
    rw [hdeclares.segments, hrest]
    rfl

/-- An inserted member is its indented lines between blanks. The blanks in front start with a line
end unless the member goes in front of a whole line. -/
theorem exists_addedText_eq (before member unit newline : List Char)
    (hnewline : ∀ c ∈ newline, isBlank c = true) :
    ∃ lead trail, (∀ c ∈ lead, isBlank c = true) ∧ (∀ c ∈ trail, isBlank c = true) ∧
      (onOwnLine before = true ∨ newline <+: lead) ∧
      addedText before member unit newline ++ ownFront before =
        lead ++ (reindent member (indentation (lastLine before) ++ unit) newline ++ trail) := by
  have hindent : ∀ c ∈ indentation (lastLine before), isBlank c = true :=
    fun c hc => isBlank_of_isIndentChar c (List.mem_takeWhile_imp hc)
  have hown : ∀ c ∈ ownFront before, isBlank c = true :=
    fun c hc => (isBlank_of_mem_place before c (by simp [hc])).1
  have hgap : ∀ c ∈ gapEnd before newline, isBlank c = true :=
    fun c hc => hnewline c (mem_gapEnd before newline c hc)
  by_cases hline : onOwnLine before = true
  · refine ⟨gapEnd before newline, newline ++ ownFront before, hgap, ?_, Or.inl hline, ?_⟩
    · intro c hc
      exact (List.mem_append.1 hc).elim (hnewline c) (hown c)
    · rw [addedText_of_onOwnLine _ _ _ _ hline]
      simp only [List.append_assoc]
  · refine ⟨newline ++ gapEnd before newline,
      newline ++ (indentation (lastLine before) ++ ownFront before), ?_, ?_,
      Or.inr (List.prefix_append _ _), ?_⟩
    · intro c hc
      exact (List.mem_append.1 hc).elim (hnewline c) (hgap c)
    · intro c hc
      simp only [List.mem_append] at hc
      exact hc.elim (hnewline c) fun hc => hc.elim (hindent c) (hown c)
    · rw [addedText_of_not_onOwnLine _ _ _ _ hline]
      simp only [List.append_assoc]

/-- An inserted member is masked to the text of one override. Blanks stand in front of its signature
unless the member goes in front of a whole line and there are none before. -/
theorem exists_override_addedText (before unit newline blanks : List Char) (names : List String)
    (hunit : ∀ c ∈ unit, isIndentChar c = true) (hnewline : ∀ c ∈ newline, isBlank c = true)
    (hblanks : ∀ c ∈ blanks, isBlank c = true)
    (hnames : ∀ name ∈ names, isName name.toList = true) :
    ∃ override : OverrideText, ∃ masked,
      MasksTo (addedText before (joinWith ['\n'] (csharpLines unit names)) unit newline ++
        ownFront before) masked ∧ override.text = blanks ++ masked ∧
      (newline ≠ [] → override.lead = [] → blanks = [] ∧ onOwnLine before = true) := by
  obtain ⟨lead, trail, hlead, htrail, hline, hadded⟩ :=
    exists_addedText_eq before (joinWith ['\n'] (csharpLines unit names)) unit newline hnewline
  have hindent : ∀ c ∈ indentation (lastLine before) ++ unit, isBlank c = true := by
    intro c hc
    apply isBlank_of_isIndentChar
    exact (List.mem_append.1 hc).elim List.mem_takeWhile_imp (hunit c)
  generalize indentation (lastLine before) ++ unit = indent at hindent hadded
  have hunit' : ∀ c ∈ unit, isBlank c = true := fun c hc => isBlank_of_isIndentChar c (hunit c hc)
  obtain ⟨body, hbody, hplain, hclear, hsilent⟩ :=
    exists_masked_indentedBody unit indent newline names hunit' hindent hnewline hnames
  have hname : "public override string ToString()".toList = overrideSignature := rfl
  rw [hadded, reindent_csharpLines unit indent newline names hunit hnames, hname]
  have hblank : ∀ a b : List Char, (∀ c ∈ a, isBlank c = true) → (∀ c ∈ b, isBlank c = true) →
      ∀ c ∈ a ++ b, isBlank c = true := by
    intro a b ha hb c hc
    exact (List.mem_append.1 hc).elim (ha c) (hb c)
  let override : OverrideText :=
    { lead := blanks ++ (lead ++ indent)
      gap := newline ++ indent
      body := body
      trail := trail
      lead_blank := hblank _ _ hblanks (hblank _ _ hlead hindent)
      gap_blank := hblank _ _ hnewline hindent
      trail_blank := htrail
      body_plain := hplain
      body_clear := hclear
      body_silent := hsilent }
  refine ⟨override, lead ++ (indent ++ (overrideSignature ++ (newline ++ (indent ++
    (['\x7b'] ++ (body ++ (['\x7d'] ++ trail))))))), ?_, ?_, ?_⟩
  · have hsignature : MasksTo overrideSignature overrideSignature :=
      MasksTo.of_plain _ (by decide)
    have hopen : MasksTo ['\x7b'] ['\x7b'] := MasksTo.of_plain _ (by decide)
    have hclose : MasksTo ['\x7d'] ['\x7d'] := MasksTo.of_plain _ (by decide)
    have hindent' := MasksTo.of_blank _ hindent
    have hmask := (MasksTo.of_blank _ hlead).append (hindent'.append (hsignature.append
      ((MasksTo.of_blank _ hnewline).append (hindent'.append (hopen.append (hbody.append
        (hclose.append (MasksTo.of_blank _ htrail))))))))
    simpa only [List.append_assoc, List.singleton_append, List.cons_append, List.nil_append]
      using hmask
  · simp [override, OverrideText.text, OverrideText.head]
  · intro hne hnil
    obtain ⟨hblanks', hrest⟩ := List.append_eq_nil_iff.1 hnil
    refine ⟨hblanks', hline.resolve_right fun hprefix => hne ?_⟩
    rw [(List.append_eq_nil_iff.1 hrest).1] at hprefix
    exact List.prefix_nil.1 hprefix

/-- An inserted member starts with a blank or with its signature. -/
theorem exists_addedText_cons (before unit newline : List Char) (names : List String)
    (hunit : ∀ c ∈ unit, isIndentChar c = true) (hnewline : ∀ c ∈ newline, isBlank c = true)
    (hnames : ∀ name ∈ names, isName name.toList = true) :
    ∃ c rest, addedText before (joinWith ['\n'] (csharpLines unit names)) unit newline ++
        ownFront before = c :: rest ∧ c ≠ '"' ∧ c ≠ '/' ∧ c ≠ '*' := by
  obtain ⟨lead, trail, hlead, -, -, hadded⟩ :=
    exists_addedText_eq before (joinWith ['\n'] (csharpLines unit names)) unit newline hnewline
  have hindent : ∀ c ∈ indentation (lastLine before) ++ unit, isBlank c = true := by
    intro c hc
    apply isBlank_of_isIndentChar
    exact (List.mem_append.1 hc).elim List.mem_takeWhile_imp (hunit c)
  have hstart : "public override string ToString()".toList =
      'p' :: "ublic override string ToString()".toList := rfl
  rw [hadded, reindent_csharpLines unit _ newline names hunit hnames, hstart]
  generalize "ublic override string ToString()".toList = signature
  generalize indentation (lastLine before) ++ unit = indent at hindent ⊢
  have hblank : ∀ c, isBlank c = true → c ≠ '"' ∧ c ≠ '/' ∧ c ≠ '*' := by
    intro c hc
    exact ⟨ne_of_isBlank c _ hc (by decide), ne_of_isBlank c _ hc (by decide),
      ne_of_isBlank c _ hc (by decide)⟩
  cases lead with
  | cons c lead => exact ⟨c, _, rfl, hblank c (hlead c (by simp))⟩
  | nil =>
      cases indent with
      | cons c indent => exact ⟨c, _, rfl, hblank c (hindent c (by simp))⟩
      | nil => exact ⟨'p', _, rfl, by decide⟩

theorem isBlank_of_mem_lineEnd (text : List Char) (c : Char) (h : c ∈ lineEnd text) :
    isBlank c = true := by
  unfold lineEnd at h
  split at h <;> revert c <;> decide

/-- What does not start with a blank does not reach into blanks at the end. -/
theorem exists_append_blanks (front rest kept blanks : List Char) (stop : Char)
    (hstop : isBlank stop = false) (hblanks : ∀ c ∈ blanks, isBlank c = true)
    (h : front ++ stop :: rest = kept ++ blanks) :
    ∃ more, kept = front ++ stop :: more ∧ rest = more ++ blanks := by
  have hnot : stop ∉ blanks := not_mem_of_isBlank _ _ hblanks hstop
  rcases List.append_eq_append_iff.1 h with ⟨between, hkept, hrest⟩ | ⟨between, hfront, hrest⟩
  · cases between with
    | nil =>
        rw [List.nil_append] at hrest
        exact absurd (by simp [← hrest]) hnot
    | cons c more =>
        obtain ⟨rfl, hmore⟩ := List.cons.inj hrest
        exact ⟨more, hkept, hmore⟩
  · exact absurd (by simp [hrest]) hnot

theorem lineEnd_ne_nil (text : List Char) : lineEnd text ≠ [] := by
  unfold lineEnd
  split <;> simp

/-- Whole lines end with a line feed. -/
theorem getLast?_beforeLastLine (text : List Char) :
    ∀ c ∈ (beforeLastLine text).getLast?, c = '\n' := by
  intro c hc
  rw [beforeLastLine, List.getLast?_reverse] at hc
  have hhead := List.head?_dropWhile_not (· ≠ '\n') text.reverse
  rw [Option.mem_def.1 hc] at hhead
  simpa using hhead

/-- A member inserted in front of a closing brace, with only blanks between some sign and the brace,
puts an override in the place of these blanks. Some of them or others separate its signature from
the sign. -/
theorem mask_insertChars (text front blanks behind unit : List Char) (sign : Char)
    (names : List String) (hmask : mask text = front ++ sign :: (blanks ++ '\x7d' :: behind))
    (hsign : isBlank sign = false) (hblanks : ∀ c ∈ blanks, isBlank c = true)
    (hunit : ∀ c ∈ unit, isIndentChar c = true)
    (hnames : ∀ name ∈ names, isName name.toList = true) :
    ∃ result, ∃ override : OverrideText,
      insertChars text (byteLength (front ++ sign :: blanks))
        (joinWith ['\n'] (csharpLines unit names)) unit = .ok result ∧
      mask result = front ++ sign :: (override.text ++ '\x7d' :: behind) ∧
      override.lead ≠ [] := by
  obtain ⟨before, after, tokens, hcloses, htokens, hbehind⟩ :=
    exists_closesAt text (front ++ sign :: blanks) behind (by simpa using hmask)
  have hlength : byteLength (front ++ sign :: blanks) = byteLength before := by
    rw [← htokens, byteLength_flatMap_masked, hcloses.front_text]
  have hnewline := isBlank_of_mem_lineEnd text
  have hplace := isBlank_of_mem_place before
  have hinsert : insertChars text (byteLength before) (joinWith ['\n'] (csharpLines unit names))
      unit = .ok (keptFront before ++ (addedText before (joinWith ['\n'] (csharpLines unit names))
        unit (lineEnd text) ++ ownFront before) ++ '\x7d' :: after) := by
    rw [hcloses.text_eq, insertChars_closing before after _ unit]
    simp
  obtain ⟨c, rest, hinserted, hc⟩ :=
    exists_addedText_cons before unit (lineEnd text) names hunit hnewline hnames
  have hoverride := fun blanks => exists_override_addedText before unit (lineEnd text) blanks names
    hunit hnewline
  rw [← hlength] at hinsert
  generalize addedText before _ unit (lineEnd text) ++ ownFront before = inserted at *
  obtain ⟨kept, hkept, hfeed, hresult⟩ := mask_replace_blanks text before after (keptFront before)
    (takenAway before ++ ownFront before) inserted tokens c rest hcloses
    (keptFront_append before).symm hplace hinserted hc
  rw [htokens] at hkept
  obtain ⟨more, rfl, rfl⟩ := exists_append_blanks front blanks kept _ sign hsign
    (fun c hc => (hplace c hc).1) hkept
  obtain ⟨override, masked, hmasked, htext, hlead⟩ :=
    hoverride more (fun c hc => hblanks c (by simp [hc])) hnames
  refine ⟨_, override, hinsert, ?_, ?_⟩
  · have hclose := maskFrom_append_of_plain (inserted.reverse ++ (keptFront before).reverse)
      ['\x7d'] after (by decide)
    have hfar := cut_behind_brace [] (inserted.reverse ++ (keptFront before).reverse)
      before.reverse after
    simp only [List.nil_append, List.singleton_append, List.reverse_singleton] at hclose hfar
    rw [hresult, hmasked, hclose, htext, ← hbehind, maskFrom, maskFrom, hfar]
    simp
  · intro hnil
    obtain ⟨rfl, hline⟩ := hlead (lineEnd_ne_nil text) hnil
    rw [keptFront, if_pos hline] at hfeed
    have hsign' : sign = '\n' := hfeed (getLast?_beforeLastLine before) sign (by simp)
    rw [hsign'] at hsign
    revert hsign
    decide

end RecordText.Source
