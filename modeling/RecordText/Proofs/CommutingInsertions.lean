import RecordText.Proofs.SimultaneousEdit

/-!
# Insertions in another order

Members are inserted at closing braces from the last brace to the first. The
result is the same when the member of any one brace goes first and the places of
those behind it are moved by what it adds.

## Implementation notes

What an insertion does is decided by the text between the closing brace before
its place and the place itself, and by the indentation of the line that this
brace stands on. An insertion at that brace changes neither.
-/

namespace RecordText.Edit

open RecordText.Text
open RecordText.Source

/-- The text before a closing brace once a member stands in front of the brace. -/
def completedFront (before member unit newline : List Char) : List Char :=
  keptFront before ++ (addedText before member unit newline ++ ownFront before)

theorem insertChars_eq_completedFront (before after member unit : List Char) :
    insertChars (before ++ '\x7d' :: after) (byteLength before) member unit =
      .ok (completedFront before member unit (lineEnd (before ++ '\x7d' :: after)) ++
        '\x7d' :: after) := by
  rw [insertChars_closing]
  simp [completedFront]

theorem uniformEnds_completedFront (before after member unit : List Char)
    (hends : UniformEnds (before ++ '\x7d' :: after)) (hmember : '\r' ∉ member)
    (hunit : ∀ c ∈ unit, isIndentChar c = true) :
    UniformEnds (completedFront before member unit (lineEnd (before ++ '\x7d' :: after)) ++
        '\x7d' :: after) ∧
      lineEnd (completedFront before member unit (lineEnd (before ++ '\x7d' :: after)) ++
        '\x7d' :: after) = lineEnd (before ++ '\x7d' :: after) := by
  have h := uniformEnds_insert before after member unit hends hmember hunit
  simpa only [completedFront, List.append_assoc] using h

theorem lastLine_append_of_mem (front back : List Char) (h : '\n' ∈ back) :
    lastLine (front ++ back) = lastLine back := by
  have hstop : ¬ (back.reverse.takeWhile fun c => decide (c ≠ '\n')).length =
      back.reverse.length := by
    intro hlength
    have hall := List.takeWhile_eq_self_iff.1 ((List.takeWhile_prefix _).eq_of_length hlength)
    simpa using hall '\n' (List.mem_reverse.2 h)
  rw [lastLine, lastLine, List.reverse_append, List.takeWhile_append, if_neg hstop]

theorem lastLine_append_of_not_mem (front back : List Char) (h : '\n' ∉ back) :
    lastLine (front ++ back) = lastLine front ++ back := by
  have hall : ∀ c ∈ back.reverse, decide (c ≠ '\n') = true := by
    intro c hc
    rw [decide_eq_true_eq]
    rintro rfl
    exact h (List.mem_reverse.1 hc)
  rw [lastLine, lastLine, List.reverse_append, List.takeWhile_append_of_pos hall,
    List.reverse_append, List.reverse_reverse]

theorem lastLine_behind_brace_of_mem (front between : List Char) (h : '\n' ∈ between) :
    lastLine (front ++ '\x7d' :: between) = lastLine between := by
  rw [lastLine_append_of_mem front _ (List.mem_cons_of_mem _ h)]
  exact lastLine_append_of_mem ['\x7d'] between h

theorem lastLine_behind_brace_of_not_mem (front between : List Char) (h : '\n' ∉ between) :
    lastLine (front ++ '\x7d' :: between) = lastLine front ++ '\x7d' :: between :=
  lastLine_append_of_not_mem front _ (by simpa using h)

section BehindBrace

variable (front front' between : List Char)

/-- Behind a closing brace the place is on a line of its own only after a line feed. -/
theorem onOwnLine_behind_brace :
    onOwnLine (front ++ '\x7d' :: between) =
      (decide ('\n' ∈ between) && allBlank (lastLine between)) := by
  by_cases h : '\n' ∈ between
  · simp [onOwnLine, lastLine_behind_brace_of_mem front between h, h]
  · have hbrace : isBlank '\x7d' = false := by decide
    simp [onOwnLine, lastLine_behind_brace_of_not_mem front between h, h, allBlank, hbrace]

theorem ownFront_behind_brace :
    ownFront (front ++ '\x7d' :: between) = ownFront (front' ++ '\x7d' :: between) := by
  unfold ownFront
  rw [onOwnLine_behind_brace, onOwnLine_behind_brace]
  by_cases h : '\n' ∈ between
  · rw [lastLine_behind_brace_of_mem _ _ h, lastLine_behind_brace_of_mem _ _ h]
  · simp [h]

theorem takenAway_behind_brace :
    takenAway (front ++ '\x7d' :: between) = takenAway (front' ++ '\x7d' :: between) := by
  have hrun (before : List Char) : (before ++ '\x7d' :: between).reverse.takeWhile isIndentChar =
      between.reverse.takeWhile isIndentChar := by
    have hbrace : isIndentChar '\x7d' = false := by decide
    rw [List.reverse_append, List.reverse_cons, List.append_assoc, List.singleton_append,
      List.takeWhile_append]
    split
    · rename_i hlength
      rw [List.takeWhile_cons_of_neg (by simp [hbrace]), List.append_nil,
        (List.takeWhile_prefix _).eq_of_length hlength]
    · rfl
  rw [takenAway, takenAway, onOwnLine_behind_brace, onOwnLine_behind_brace, hrun, hrun]

/-- Whether an empty line is due is decided behind the last closing brace. -/
theorem needsGap_behind_brace :
    needsGap (front ++ '\x7d' :: between) = needsGap (front' ++ '\x7d' :: between) := by
  have hbrace : isBlank '\x7d' = false := by decide
  have hlast (before : List Char) : (before ++ '\x7d' :: between).reverse.dropWhile isBlank =
      if (between.reverse.dropWhile isBlank).isEmpty then '\x7d' :: before.reverse
      else between.reverse.dropWhile isBlank ++ '\x7d' :: before.reverse := by
    rw [List.reverse_append, List.reverse_cons, List.append_assoc, List.singleton_append,
      List.dropWhile_append, List.dropWhile_cons_of_neg (by simp [hbrace])]
  rw [needsGap, needsGap, hlast, hlast]
  cases between.reverse.dropWhile isBlank <;> rfl

/-- An insertion behind a closing brace changes the text behind the brace, and in the same way for
all fronts that end on equally indented lines. -/
theorem exists_completedFront_eq (member unit newline : List Char) :
    ∃ completed, ∀ front', indentation (lastLine front') = indentation (lastLine front) →
      completedFront (front' ++ '\x7d' :: between) member unit newline =
        front' ++ '\x7d' :: completed := by
  obtain ⟨kept, hkept, hbetween⟩ :=
    exists_keptFront_eq (front ++ '\x7d' :: between) front between rfl
  refine ⟨kept ++ (addedText (front ++ '\x7d' :: between) member unit newline ++
    ownFront (front ++ '\x7d' :: between)), ?_⟩
  intro front' hindent
  obtain ⟨kept', hkept', hbetween'⟩ :=
    exists_keptFront_eq (front' ++ '\x7d' :: between) front' between rfl
  rw [takenAway_behind_brace front' front, ownFront_behind_brace front' front] at hbetween'
  obtain rfl : kept' = kept := List.append_cancel_right (hbetween'.symm.trans hbetween)
  have hline :
      onOwnLine (front' ++ '\x7d' :: between) = onOwnLine (front ++ '\x7d' :: between) := by
    rw [onOwnLine_behind_brace, onOwnLine_behind_brace]
  have hgap : gapEnd (front' ++ '\x7d' :: between) newline =
      gapEnd (front ++ '\x7d' :: between) newline := by
    rw [gapEnd, gapEnd, hkept, hkept', needsGap_behind_brace front' front]
  have hindents : indentation (lastLine (front' ++ '\x7d' :: between)) =
      indentation (lastLine (front ++ '\x7d' :: between)) := by
    by_cases h : '\n' ∈ between
    · rw [lastLine_behind_brace_of_mem _ _ h, lastLine_behind_brace_of_mem _ _ h]
    · rw [lastLine_behind_brace_of_not_mem _ _ h, lastLine_behind_brace_of_not_mem _ _ h,
        indentation_append_closing, indentation_append_closing, hindent]
  have hadded : addedText (front' ++ '\x7d' :: between) member unit newline =
      addedText (front ++ '\x7d' :: between) member unit newline := by
    simp only [addedText, hline, hgap, hindents]
  rw [completedFront, hkept', hadded, ownFront_behind_brace front' front]
  simp

end BehindBrace

theorem lastLine_behind_feed (front line : List Char) (h : '\n' ∉ line) :
    lastLine (front ++ '\n' :: line) = line := by
  rw [lastLine_append_of_mem front _ (by simp)]
  exact lastLine_append_of_not_mem ['\n'] line h

theorem not_mem_lastLine (text : List Char) : '\n' ∉ lastLine text := by
  intro hmem
  simpa using List.mem_takeWhile_imp (List.mem_reverse.1 hmem)

theorem exists_lineEnd_eq (text : List Char) : ∃ more, lineEnd text = more ++ ['\n'] := by
  unfold lineEnd
  split
  · exact ⟨['\r'], rfl⟩
  · exact ⟨[], rfl⟩

/-- An insertion keeps the indentation of the line that its brace stands on. -/
theorem indentation_completedFront (before member unit text : List Char) :
    indentation (lastLine (completedFront before member unit (lineEnd text))) =
      indentation (lastLine before) := by
  obtain ⟨more, hend⟩ := exists_lineEnd_eq text
  by_cases hline : onOwnLine before = true
  · have hfront : completedFront before member unit (lineEnd text) =
        keptFront before ++ (gapEnd before (lineEnd text) ++
          (reindent member (indentation (lastLine before) ++ unit) (lineEnd text) ++ more)) ++
            '\n' :: lastLine before := by
      rw [completedFront, addedText_of_onOwnLine _ _ _ _ hline, ownFront, if_pos hline]
      conv_lhs => rw [hend]
      simp [hend]
    rw [hfront, lastLine_behind_feed _ _ (not_mem_lastLine before)]
  · have hfront : completedFront before member unit (lineEnd text) =
        keptFront before ++ (lineEnd text ++ (gapEnd before (lineEnd text) ++
          (reindent member (indentation (lastLine before) ++ unit) (lineEnd text) ++ more))) ++
            '\n' :: indentation (lastLine before) := by
      rw [completedFront, addedText_of_not_onOwnLine _ _ _ _ hline, ownFront, if_neg hline]
      conv_lhs => rw [hend]
      simp [hend]
    have hfeed : '\n' ∉ indentation (lastLine before) := by
      intro hmem
      exact absurd rfl (ne_lineFeed_of_isIndentChar _ (List.mem_takeWhile_imp hmem))
    rw [hfront, lastLine_behind_feed _ _ hfeed, indentation, indentation, List.takeWhile_idem]

/-- Two insertions commute: the text between their closing braces is completed in the same way
before and after the first member is there. -/
theorem exists_insertChars_commute (unit before between behind first last : List Char)
    (hunit : ∀ c ∈ unit, isIndentChar c = true) (hfirst : '\r' ∉ first) (hlast : '\r' ∉ last)
    (hends : UniformEnds (before ++ '\x7d' :: between ++ '\x7d' :: behind)) :
    ∃ completed,
      insertChars (before ++ '\x7d' :: between ++ '\x7d' :: behind)
          (byteLength (before ++ '\x7d' :: between)) last unit =
        .ok (before ++ '\x7d' :: completed ++ '\x7d' :: behind) ∧
      UniformEnds (before ++ '\x7d' :: completed ++ '\x7d' :: behind) ∧
      lineEnd (before ++ '\x7d' :: completed ++ '\x7d' :: behind) =
        lineEnd (before ++ '\x7d' :: between ++ '\x7d' :: behind) ∧
      (∀ place < byteLength (before ++ '\x7d' :: between),
        ClosesText (before ++ '\x7d' :: between ++ '\x7d' :: behind) place →
          ClosesText (before ++ '\x7d' :: completed ++ '\x7d' :: behind) place) ∧
      ∀ front, front = completedFront before first unit
          (lineEnd (before ++ '\x7d' :: between ++ '\x7d' :: behind)) →
        insertChars (front ++ '\x7d' :: between ++ '\x7d' :: behind)
            (byteLength (front ++ '\x7d' :: between)) last unit =
          .ok (front ++ '\x7d' :: completed ++ '\x7d' :: behind) := by
  obtain ⟨completed, hcompleted⟩ := exists_completedFront_eq before between last unit
    (lineEnd (before ++ '\x7d' :: between ++ '\x7d' :: behind))
  have hsame := hcompleted before rfl
  have hinsert := insertChars_eq_completedFront (before ++ '\x7d' :: between) behind last unit
  obtain ⟨huniform, hline⟩ :=
    uniformEnds_completedFront (before ++ '\x7d' :: between) behind last unit hends hlast hunit
  rw [hsame] at hinsert huniform hline
  refine ⟨completed, hinsert, huniform, hline, ?_, ?_⟩
  · intro place hlt hcloses
    have hkept := ClosesText.insert _ behind (addedText (before ++ '\x7d' :: between) last unit
      (lineEnd (before ++ '\x7d' :: between ++ '\x7d' :: behind)) ++
        ownFront (before ++ '\x7d' :: between) ++ '\x7d' :: behind) place hcloses hlt
    rwa [← List.append_assoc, ← completedFront, hsame] at hkept
  · rintro front rfl
    have hindent := indentation_completedFront before first unit
      (before ++ '\x7d' :: between ++ '\x7d' :: behind)
    have hends' : UniformEnds (before ++ '\x7d' :: (between ++ '\x7d' :: behind)) := by
      simpa using hends
    obtain ⟨-, hfirstLine⟩ := uniformEnds_completedFront before _ first unit hends' hfirst hunit
    simp only [← List.append_assoc, ← List.cons_append] at hfirstLine
    rw [insertChars_eq_completedFront, hfirstLine, hcompleted _ hindent]

/-- An insertion whose place is moved along with the text behind an earlier one. -/
def Insertion.follow (insertion : Insertion) (before completed : List Char) : Insertion :=
  { insertion with offset := insertion.offset - byteLength before + byteLength completed }

/-- Insertions from the last to the first may start with any one of them, if the places behind it
move with the text. -/
theorem applyInsertions_first (unit before after : List Char) (first : Insertion)
    (high low : List Insertion) (hunit : ∀ c ∈ unit, isIndentChar c = true)
    (hoffset : byteLength before = first.offset)
    (hends : UniformEnds (before ++ '\x7d' :: after))
    (hmember : '\r' ∉ first.member.text.toList)
    (hordered : high.Pairwise fun a b => b.offset < a.offset)
    (hhigh : ∀ insertion ∈ high, first.offset < insertion.offset ∧
      ClosesText (before ++ '\x7d' :: after) insertion.offset ∧
        '\r' ∉ insertion.member.text.toList)
    (front : List Char) (hfront : front = completedFront before first.member.text.toList unit
      (lineEnd (before ++ '\x7d' :: after))) :
    applyInsertions unit (before ++ '\x7d' :: after) (high ++ first :: low) =
      applyInsertions unit (front ++ '\x7d' :: after)
        (high.map (Insertion.follow · before front) ++ low) := by
  induction high generalizing after with
  | nil =>
      have hinsert := insertChars_eq_completedFront before after first.member.text.toList unit
      rw [hoffset, ← hfront] at hinsert
      rw [List.nil_append, applyInsertions, hinsert]
      rfl
  | cons last high ih =>
      obtain ⟨hlast, hrest⟩ := List.pairwise_cons.1 hordered
      obtain ⟨hlt, ⟨passed, behind, htext, hpassed⟩, hmember'⟩ := hhigh last (by simp)
      obtain ⟨between, rfl⟩ := exists_append_of_byteLength_lt passed ('\x7d' :: behind) before after
        htext.symm (by rw [hpassed, hoffset]; exact hlt)
      obtain rfl : after = between ++ '\x7d' :: behind := by simpa using htext
      have hassoc (more piece : List Char) : more ++ '\x7d' :: (piece ++ '\x7d' :: behind) =
          more ++ '\x7d' :: piece ++ '\x7d' :: behind := by simp
      rw [hassoc] at hends hfront
      obtain ⟨completed, hinsert, huniform, hline, hkept, hcommute⟩ := exists_insertChars_commute
        unit before between behind _ _ hunit hmember hmember' hends
      have hrun := ih (completed ++ '\x7d' :: behind) (by rwa [hassoc]) hrest
        (fun insertion hinsertion => by
          obtain ⟨hbehind, hcloses, hmember''⟩ := hhigh insertion (by simp [hinsertion])
          rw [hassoc] at hcloses ⊢
          exact ⟨hbehind, hkept _ (hpassed ▸ hlast insertion hinsertion) hcloses, hmember''⟩)
        (by rw [hassoc, hline, ← hfront])
      have hmoved : (last.follow before front).offset =
          byteLength (front ++ '\x7d' :: between) := by
        simp only [Insertion.follow, ← hpassed, byteLength_append]
        omega
      rw [hpassed] at hinsert
      rw [hassoc, hassoc, List.cons_append, applyInsertions, hinsert, List.map_cons,
        List.cons_append, applyInsertions, hmoved]
      simp only [Insertion.follow] at hrun ⊢
      rw [hcommute front hfront, ← hassoc, ← hassoc]
      exact hrun

end RecordText.Edit
