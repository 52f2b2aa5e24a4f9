import RecordText.Edit.Insertion
import RecordText.Proofs.HeaderPlaces

/-!
# The place of an insertion

A member that goes in front of a closing brace leaves alone what stands behind
the brace and most of what stands before it. The text before the brace is a
front that is kept, then spaces and tabs that are taken away or, if nothing but
blanks stands in front of the brace on its line, these blanks, which stay in
front of the brace. The member is added behind the kept front.

Every closing brace before the place is part of the kept front.
-/

namespace RecordText.Edit

open RecordText.Text

/-- Whether nothing but blanks stands before the place on its line. -/
def onOwnLine (before : List Char) : Bool :=
  allBlank (lastLine before)

/-- The part of the text before a place that stays in front of an inserted member. -/
def keptFront (before : List Char) : List Char :=
  if onOwnLine before then beforeLastLine before else trimIndentation before

/-- The spaces and tabs before a place that an insertion takes away. -/
def takenAway (before : List Char) : List Char :=
  if onOwnLine before then [] else (before.reverse.takeWhile isIndentChar).reverse

/-- The blanks before a place that stay behind an inserted member. -/
def ownFront (before : List Char) : List Char :=
  if onOwnLine before then lastLine before else []

/-- The end of the empty line in front of an inserted member, if one is due. -/
def gapEnd (before newline : List Char) : List Char :=
  if needsGap (keptFront before) then newline else []

/-- What an insertion adds behind the kept front. -/
def addedText (before member unit newline : List Char) : List Char :=
  let indent := indentation (lastLine before)
  let block := reindent member (indent ++ unit) newline
  if onOwnLine before then gapEnd before newline ++ (block ++ newline)
  else newline ++ (gapEnd before newline ++ (block ++ (newline ++ indent)))

theorem mem_gapEnd (before newline : List Char) (c : Char) (h : c ∈ gapEnd before newline) :
    c ∈ newline := by
  unfold gapEnd at h
  split at h
  · exact h
  · cases h

theorem addedText_of_onOwnLine (before member unit newline : List Char)
    (h : onOwnLine before = true) :
    addedText before member unit newline =
      gapEnd before newline ++
        (reindent member (indentation (lastLine before) ++ unit) newline ++ newline) := by
  simp only [addedText, h, if_true]

theorem addedText_of_not_onOwnLine (before member unit newline : List Char)
    (h : ¬ onOwnLine before = true) :
    addedText before member unit newline =
      newline ++ (gapEnd before newline ++
        (reindent member (indentation (lastLine before) ++ unit) newline ++
          (newline ++ indentation (lastLine before)))) := by
  simp only [addedText, h]
  rfl

/-- The text before a place is the kept front, then what is taken away or stays at the place. -/
theorem keptFront_append (before : List Char) :
    keptFront before ++ (takenAway before ++ ownFront before) = before := by
  unfold keptFront takenAway ownFront
  split
  · rw [List.nil_append, beforeLastLine_append_lastLine]
  · rw [trimIndentation, List.append_nil, ← List.reverse_append, List.takeWhile_append_dropWhile,
      List.reverse_reverse]

theorem isIndentChar_of_mem_takenAway (before : List Char) (c : Char) (h : c ∈ takenAway before) :
    isIndentChar c = true := by
  unfold takenAway at h
  split at h
  · cases h
  · exact List.mem_takeWhile_imp (List.mem_reverse.1 h)

theorem ne_lineFeed_of_isIndentChar (c : Char) (h : isIndentChar c = true) : c ≠ '\n' := by
  rintro rfl
  revert h
  decide

/-- Between the kept front and the place stand only blanks of one line. -/
theorem isBlank_of_mem_place (before : List Char) (c : Char)
    (h : c ∈ takenAway before ++ ownFront before) : isBlank c = true ∧ c ≠ '\n' := by
  rcases List.mem_append.1 h with htaken | hown
  · have hindent := isIndentChar_of_mem_takenAway before c htaken
    exact ⟨isBlank_of_isIndentChar c hindent, ne_lineFeed_of_isIndentChar c hindent⟩
  · unfold ownFront at hown
    split at hown
    · rename_i hline
      refine ⟨List.all_eq_true.1 hline c hown, ?_⟩
      have hfeed := List.mem_takeWhile_imp (List.mem_reverse.1 hown)
      simpa using hfeed
    · cases hown

theorem indentation_append_closing (front after : List Char) :
    indentation (front ++ '\x7d' :: after) = indentation front := by
  unfold indentation
  induction front with
  | nil => rfl
  | cons c front ih =>
      by_cases hc : isIndentChar c = true
      · rw [List.cons_append, List.takeWhile_cons_of_pos hc, List.takeWhile_cons_of_pos hc, ih]
      · rw [List.cons_append, List.takeWhile_cons_of_neg hc, List.takeWhile_cons_of_neg hc]

theorem insertBetween_closing (before after member unit newline : List Char) :
    insertBetween before ('\x7d' :: after) member unit newline =
      keptFront before ++ (addedText before member unit newline ++
        (ownFront before ++ '\x7d' :: after)) := by
  simp only [insertBetween, indentation_append_closing, addedText, gapEnd, keptFront, ownFront,
    onOwnLine]
  by_cases hline : allBlank (lastLine before) = true
  · simp only [hline, if_true, List.append_assoc]
  · simp only [hline, Bool.false_eq_true, if_false, List.append_assoc, List.nil_append]

/-- A member goes in front of a closing brace. -/
theorem insertChars_closing (before after member unit : List Char) :
    insertChars (before ++ '\x7d' :: after) (byteLength before) member unit =
      .ok (keptFront before ++
        (addedText before member unit (lineEnd (before ++ '\x7d' :: after)) ++
          (ownFront before ++ '\x7d' :: after))) := by
  have hbound : ¬ byteLength (before ++ '\x7d' :: after) < byteLength before := by
    rw [byteLength_append]
    omega
  rw [insertChars, if_neg hbound, cutAt?_append]
  exact congrArg Except.ok (insertBetween_closing before after member unit _)

/-- A closing brace before the place is part of the kept front. -/
theorem exists_keptFront_eq (before front more : List Char)
    (h : before = front ++ '\x7d' :: more) :
    ∃ behind, keptFront before = front ++ '\x7d' :: behind ∧
      more = behind ++ (takenAway before ++ ownFront before) := by
  have hbrace : '\x7d' ∉ takenAway before ++ ownFront before := by
    intro hmem
    have hblank := (isBlank_of_mem_place before '\x7d' hmem).1
    revert hblank
    decide
  have hsplit := (keptFront_append before).trans h
  rcases List.append_eq_append_iff.1 hsplit with ⟨between, hfront, hrest⟩ | ⟨behind, hkept, hrest⟩
  · exact absurd (by simp [hrest]) hbrace
  · cases behind with
    | nil =>
        rw [List.nil_append] at hrest
        rw [← hrest] at hbrace
        exact absurd (by simp) hbrace
    | cons c behind =>
        obtain ⟨rfl, hmore⟩ := List.cons.inj hrest
        exact ⟨behind, hkept, hmore⟩

end RecordText.Edit
