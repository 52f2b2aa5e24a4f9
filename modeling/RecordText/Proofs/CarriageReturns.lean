import RecordText.Proofs.CommutingInsertions

/-!
# Carriage returns before line feeds

A text whose lines end with a line feed can be given carriage returns before
all of them. Insertions into the two texts run in step: the second one is at all
times the first one with carriage returns, and the member is inserted with the
line ends that the text has.
-/

namespace RecordText

namespace Text

/-- A line feed behind a carriage return, and any other character as it is. -/
def returnFeed (c : Char) : List Char :=
  if c = '\n' then ['\r', '\n'] else [c]

/-- A text with a carriage return before every line feed. -/
def withReturns (text : List Char) : List Char :=
  text.flatMap returnFeed

@[simp] theorem withReturns_nil : withReturns [] = [] := rfl

@[simp] theorem withReturns_feed (text : List Char) :
    withReturns ('\n' :: text) = '\r' :: '\n' :: withReturns text := rfl

theorem returnFeed_of_ne (c : Char) (h : c ≠ '\n') : returnFeed c = [c] :=
  if_neg h

theorem withReturns_cons_of_ne (c : Char) (text : List Char) (h : c ≠ '\n') :
    withReturns (c :: text) = c :: withReturns text := by
  rw [withReturns, List.flatMap_cons, returnFeed_of_ne c h]
  rfl

@[simp] theorem withReturns_append (front back : List Char) :
    withReturns (front ++ back) = withReturns front ++ withReturns back :=
  List.flatMap_append

theorem withReturns_of_not_mem (text : List Char) (h : '\n' ∉ text) : withReturns text = text := by
  induction text with
  | nil => rfl
  | cons c text ih =>
      rw [List.mem_cons, not_or] at h
      rw [withReturns_cons_of_ne c text (Ne.symm h.1), ih h.2]

theorem withReturns_closing (before after : List Char) :
    withReturns (before ++ '\x7d' :: after) =
      withReturns before ++ '\x7d' :: withReturns after := by
  rw [withReturns_append, withReturns_cons_of_ne _ _ (by decide)]

theorem byteLength_withReturns (text : List Char) :
    byteLength (withReturns text) = byteLength text + lineFeeds text := by
  induction text with
  | nil => rfl
  | cons c text ih =>
      by_cases h : c = '\n'
      · subst h
        have hreturn : '\r'.utf8Size = 1 := by decide
        simp only [withReturns_feed, byteLength, ih, lineFeeds, hreturn]
        simp only [List.countP_cons, decide_true, if_true]
        omega
      · simp only [withReturns_cons_of_ne c text h, byteLength, ih, lineFeeds]
        simp only [List.countP_cons, h, decide_false, Bool.false_eq_true, if_false]
        omega

/-- A text is one line, or it has a last line behind a line feed. -/
theorem not_mem_or_exists_last (text : List Char) :
    '\n' ∉ text ∨ ∃ front line, text = front ++ '\n' :: line ∧ '\n' ∉ line := by
  induction text with
  | nil => exact Or.inl (by simp)
  | cons c text ih =>
      rcases ih with hnone | ⟨front, line, rfl, hline⟩
      · by_cases h : c = '\n'
        · exact Or.inr ⟨[], text, by rw [h]; rfl, hnone⟩
        · exact Or.inl (by simp [hnone, Ne.symm h])
      · exact Or.inr ⟨c :: front, line, rfl, hline⟩

theorem not_mem_lines (text line : List Char) (h : line ∈ lines text) : '\n' ∉ line := by
  fun_induction lines text generalizing line with
  | case1 => simp at h
  | case2 rest ih =>
      rcases List.mem_cons.1 h with rfl | hrest
      · simp
      · exact ih line hrest
  | case3 rest ih =>
      rcases List.mem_cons.1 h with rfl | hrest
      · simp
      · exact ih line hrest
  | case4 c rest hfeed _ ih =>
      have hc : c ≠ '\n' := hfeed
      cases hlines : lines rest with
      | nil =>
          rw [hlines] at h
          obtain rfl : line = [c] := by simpa [consLine] using h
          simp [Ne.symm hc]
      | cons first others =>
          rw [hlines] at h ih
          rcases List.mem_cons.1 h with rfl | hrest
          · have hfirst := ih first (by simp)
            simp [Ne.symm hc, hfirst]
          · exact ih line (by simp [hrest])

/-- Lines that are put together with wide ends. -/
theorem withReturns_joinWith (parts : List (List Char)) (h : ∀ line ∈ parts, '\n' ∉ line) :
    withReturns (joinWith ['\n'] parts) = joinWith ['\r', '\n'] parts := by
  induction parts with
  | nil => rfl
  | cons line rest ih =>
      have hline := withReturns_of_not_mem line (h line (by simp))
      cases rest with
      | nil => exact hline
      | cons next rest =>
          have hrest := ih fun other hother => h other (by simp [hother])
          rw [joinWith, joinWith, withReturns_append, withReturns_append, hline, hrest]
          rfl

end Text

namespace Edit

open RecordText.Text
open RecordText.Source

theorem lastLine_withReturns (text : List Char) : lastLine (withReturns text) = lastLine text := by
  rcases not_mem_or_exists_last text with hnone | ⟨front, line, rfl, hline⟩
  · rw [withReturns_of_not_mem text hnone]
  · have hwide : withReturns (front ++ '\n' :: line) =
        withReturns front ++ ['\r'] ++ '\n' :: line := by
      rw [withReturns_append, withReturns_feed, withReturns_of_not_mem line hline]
      simp
    rw [hwide, lastLine_behind_feed _ _ hline, lastLine_behind_feed _ _ hline]

theorem beforeLastLine_withReturns (text : List Char) :
    beforeLastLine (withReturns text) = withReturns (beforeLastLine text) := by
  have hline := withReturns_of_not_mem _ (not_mem_lastLine text)
  have hsplit := congrArg withReturns (beforeLastLine_append_lastLine text)
  rw [withReturns_append, hline] at hsplit
  have hsplit' := beforeLastLine_append_lastLine (withReturns text)
  rw [lastLine_withReturns] at hsplit'
  exact List.append_cancel_right (hsplit'.trans hsplit.symm)

theorem onOwnLine_withReturns (before : List Char) :
    onOwnLine (withReturns before) = onOwnLine before := by
  rw [onOwnLine, onOwnLine, lastLine_withReturns]

theorem trimIndentation_append_of_indent (text : List Char) (c : Char) (h : isIndentChar c = true) :
    trimIndentation (text ++ [c]) = trimIndentation text := by
  simp [trimIndentation, h]

theorem trimIndentation_append_of_sign (text : List Char) (c : Char) (h : isIndentChar c = false) :
    trimIndentation (text ++ [c]) = text ++ [c] := by
  simp [trimIndentation, h]

theorem trimIndentation_withReturns (text : List Char) :
    trimIndentation (withReturns text) = withReturns (trimIndentation text) := by
  induction text using List.reverseRecOn with
  | nil => rfl
  | append_singleton text c ih =>
      cases hindent : isIndentChar c with
      | true =>
          have hsame : withReturns [c] = [c] :=
            withReturns_of_not_mem _ (by simpa using (ne_lineFeed_of_isIndentChar c hindent).symm)
          rw [withReturns_append, hsame, trimIndentation_append_of_indent _ c hindent,
            trimIndentation_append_of_indent _ c hindent, ih]
      | false =>
          rw [trimIndentation_append_of_sign _ c hindent, withReturns_append]
          by_cases hfeed : c = '\n'
          · subst hfeed
            have hlast := trimIndentation_append_of_sign (withReturns text ++ ['\r']) '\n' hindent
            simpa using hlast
          · rw [withReturns_cons_of_ne c [] hfeed]
            exact trimIndentation_append_of_sign _ c hindent

theorem needsGap_append_of_blank (text : List Char) (c : Char) (h : isBlank c = true) :
    needsGap (text ++ [c]) = needsGap text := by
  simp [needsGap, h]

theorem needsGap_append_of_sign (text : List Char) (c : Char) (h : isBlank c = false) :
    needsGap (text ++ [c]) = decide (c ≠ '\x7b') := by
  simp [needsGap, h]

theorem needsGap_withReturns (text : List Char) : needsGap (withReturns text) = needsGap text := by
  induction text using List.reverseRecOn with
  | nil => rfl
  | append_singleton text c ih =>
      rw [withReturns_append]
      by_cases hfeed : c = '\n'
      · subst hfeed
        have hwide :
            withReturns text ++ withReturns ['\n'] = withReturns text ++ ['\r'] ++ ['\n'] := by
          simp
        rw [hwide, needsGap_append_of_blank _ _ (by decide),
          needsGap_append_of_blank _ _ (by decide), needsGap_append_of_blank _ _ (by decide), ih]
      · rw [withReturns_cons_of_ne c [] hfeed, withReturns_nil]
        cases hblank : isBlank c with
        | true => rw [needsGap_append_of_blank _ c hblank, needsGap_append_of_blank _ c hblank, ih]
        | false => rw [needsGap_append_of_sign _ c hblank, needsGap_append_of_sign _ c hblank]

theorem keptFront_withReturns (before : List Char) :
    keptFront (withReturns before) = withReturns (keptFront before) := by
  rw [keptFront, keptFront, onOwnLine_withReturns, beforeLastLine_withReturns,
    trimIndentation_withReturns]
  split <;> rfl

theorem ownFront_withReturns (before : List Char) :
    ownFront (withReturns before) = withReturns (ownFront before) := by
  rw [ownFront, ownFront, onOwnLine_withReturns, lastLine_withReturns]
  split
  · exact (withReturns_of_not_mem _ (not_mem_lastLine before)).symm
  · rfl

theorem gapEnd_withReturns (before : List Char) :
    gapEnd (withReturns before) ['\r', '\n'] = withReturns (gapEnd before ['\n']) := by
  rw [gapEnd, gapEnd, keptFront_withReturns, needsGap_withReturns]
  split <;> rfl

theorem reindent_withReturns (member indent : List Char) (h : '\n' ∉ indent) :
    reindent member indent ['\r', '\n'] = withReturns (reindent member indent ['\n']) := by
  rw [reindent, reindent, withReturns_joinWith]
  intro line hline
  obtain ⟨old, hold, rfl⟩ := List.mem_map.1 hline
  have hfeed := not_mem_lines member old hold
  split
  · simp
  · simp [h, hfeed]

/-- A member is added with the line ends of the text. -/
theorem addedText_withReturns (before member unit : List Char) (hunit : '\n' ∉ unit) :
    addedText (withReturns before) member unit ['\r', '\n'] =
      withReturns (addedText before member unit ['\n']) := by
  have hindent : '\n' ∉ indentation (lastLine before) :=
    fun hmem => ne_lineFeed_of_isIndentChar _ (List.mem_takeWhile_imp hmem) rfl
  have hblock := reindent_withReturns member (indentation (lastLine before) ++ unit)
    (by simp [hindent, hunit])
  have hend : withReturns ['\n'] = ['\r', '\n'] := rfl
  by_cases hline : onOwnLine before = true
  · rw [addedText_of_onOwnLine _ _ _ _ hline,
      addedText_of_onOwnLine _ _ _ _ (by rwa [onOwnLine_withReturns]), lastLine_withReturns, hblock,
      gapEnd_withReturns, withReturns_append, withReturns_append, hend]
  · rw [addedText_of_not_onOwnLine _ _ _ _ hline,
      addedText_of_not_onOwnLine _ _ _ _ (by rwa [onOwnLine_withReturns]), lastLine_withReturns,
      hblock, gapEnd_withReturns]
    simp only [withReturns_append, hend, withReturns_of_not_mem _ hindent]

theorem completedFront_withReturns (before member unit : List Char) (hunit : '\n' ∉ unit) :
    completedFront (withReturns before) member unit ['\r', '\n'] =
      withReturns (completedFront before member unit ['\n']) := by
  rw [completedFront, completedFront, keptFront_withReturns, addedText_withReturns _ _ _ hunit,
    ownFront_withReturns, withReturns_append, withReturns_append]

/-- A text of several lines that all end with a bare line feed. -/
structure FeedLines (text : List Char) : Prop where
  feed : '\n' ∈ text
  no_return : '\r' ∉ text

theorem FeedLines.lineEnd_eq {text : List Char} (h : FeedLines text) : lineEnd text = ['\n'] := by
  rw [lineEnd, hasCarriageReturnLineFeed_eq_false text h.no_return]
  rfl

theorem FeedLines.lineEnd_withReturns {text : List Char} (h : FeedLines text) :
    lineEnd (withReturns text) = ['\r', '\n'] := by
  obtain ⟨front, back, rfl⟩ := List.append_of_mem h.feed
  have hwide := hasCarriageReturnLineFeed_append (withReturns front) (withReturns back)
  rw [withReturns_append, withReturns_feed, lineEnd, if_pos hwide]

/-- An insertion keeps the line ends bare. -/
theorem FeedLines.insert {before after : List Char} (h : FeedLines (before ++ '\x7d' :: after))
    (member unit : List Char) (hunit : ∀ c ∈ unit, isIndentChar c = true)
    (hmember : '\r' ∉ member) :
    FeedLines (completedFront before member unit ['\n'] ++ '\x7d' :: after) := by
  obtain ⟨huniform, hline⟩ := uniformEnds_completedFront before after member unit
    (Or.inr h.no_return) hmember hunit
  rw [h.lineEnd_eq] at huniform hline
  constructor
  · obtain ⟨front, back, hadded⟩ := exists_newline_addedText before member unit ['\n']
    simp [completedFront, hadded]
  · rcases huniform with hwide | hnone
    · rw [lineEnd, if_pos hwide] at hline
      cases hline
    · exact hnone

/-- An insertion into the text with carriage returns gives the result with carriage returns. -/
theorem insertChars_withReturns (before after member unit : List Char)
    (h : FeedLines (before ++ '\x7d' :: after)) (hunit : ∀ c ∈ unit, isIndentChar c = true) :
    insertChars (withReturns (before ++ '\x7d' :: after)) (byteLength (withReturns before)) member
        unit =
      .ok (withReturns (completedFront before member unit ['\n'] ++ '\x7d' :: after)) := by
  have hfeed : '\n' ∉ unit := fun hmem => ne_lineFeed_of_isIndentChar _ (hunit _ hmem) rfl
  have hline := h.lineEnd_withReturns
  rw [withReturns_closing] at hline
  rw [withReturns_closing, insertChars_eq_completedFront, hline,
    completedFront_withReturns _ _ _ hfeed, withReturns_closing]

/-- An insertion at the place that carriage returns move it to. -/
def Insertion.withReturns (text : List Char) (insertion : Insertion) : Insertion :=
  { insertion with offset := byteLength (Text.withReturns (beforeOffset text insertion.offset)) }

theorem Insertion.withReturns_append (before after : List Char) (insertion : Insertion)
    (h : byteLength before = insertion.offset) :
    insertion.withReturns (before ++ after) =
      { insertion with offset := byteLength (Text.withReturns before) } := by
  rw [Insertion.withReturns, ← h, beforeOffset_append]

/-- An insertion at an earlier closing brace is moved by the line feeds before it alone. -/
theorem Insertion.withReturns_insert (before after added : List Char) (other : Insertion)
    (hcloses : ClosesText (before ++ '\x7d' :: after) other.offset)
    (hlt : other.offset < byteLength before) :
    other.withReturns (keptFront before ++ added) =
      other.withReturns (before ++ '\x7d' :: after) := by
  obtain ⟨front, behind, htext, hfront⟩ := hcloses
  obtain ⟨more, hbefore⟩ :=
    exists_append_of_byteLength_lt before _ front behind htext (by rwa [hfront])
  obtain ⟨between, hkept, -⟩ := exists_keptFront_eq before front more hbefore
  rw [htext, hkept, List.append_assoc, Insertion.withReturns_append _ _ _ hfront,
    Insertion.withReturns_append _ _ _ hfront]

/-- Insertions into the text with carriage returns, from the last to the first, give the result with
carriage returns. -/
theorem applyInsertions_withReturns (unit text : List Char) (insertions : List Insertion)
    (h : FeedLines text) (hunit : ∀ c ∈ unit, isIndentChar c = true)
    (hordered : insertions.Pairwise fun a b => b.offset < a.offset)
    (hcloses : ∀ insertion ∈ insertions, ClosesText text insertion.offset)
    (hmembers : ∀ insertion ∈ insertions, '\r' ∉ insertion.member.text.toList) :
    applyInsertions unit (withReturns text) (insertions.map (Insertion.withReturns text)) =
      (applyInsertions unit text insertions).map withReturns := by
  induction insertions generalizing text with
  | nil => rfl
  | cons insertion rest ih =>
      obtain ⟨hfirst, hrest⟩ := List.pairwise_cons.1 hordered
      obtain ⟨before, after, rfl, hoffset⟩ := hcloses insertion (by simp)
      have hinsert := insertChars_eq_completedFront before after insertion.member.text.toList unit
      rw [hoffset, h.lineEnd_eq] at hinsert
      have hwide := insertChars_withReturns before after insertion.member.text.toList unit h hunit
      have htext : completedFront before insertion.member.text.toList unit ['\n'] ++
          '\x7d' :: after = keptFront before ++ (addedText before insertion.member.text.toList unit
            ['\n'] ++ (ownFront before ++ '\x7d' :: after)) := by
        simp [completedFront]
      have hsame := fun other hother => Insertion.withReturns_insert before after
        (addedText before insertion.member.text.toList unit ['\n'] ++
          (ownFront before ++ '\x7d' :: after)) other
        (hcloses other (List.mem_cons_of_mem _ hother)) (hoffset ▸ hfirst other hother)
      have hstill := fun other hother => ClosesText.insert before after
        (addedText before insertion.member.text.toList unit ['\n'] ++
          (ownFront before ++ '\x7d' :: after)) other.offset
        (hcloses other (List.mem_cons_of_mem _ hother)) (hoffset ▸ hfirst other hother)
      have hrun := ih _ (h.insert _ unit hunit (hmembers insertion (by simp))) hrest
        (fun other hother => htext ▸ hstill other hother)
        fun other hother => hmembers other (List.mem_cons_of_mem _ hother)
      rw [htext, List.map_congr_left hsame, ← htext] at hrun
      rw [List.map_cons, applyInsertions, applyInsertions, hinsert,
        Insertion.withReturns_append before _ insertion hoffset, hwide]
      exact hrun

end Edit

end RecordText
