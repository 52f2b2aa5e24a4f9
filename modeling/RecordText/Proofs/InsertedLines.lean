import RecordText.Proofs.CarriageReturns
import RecordText.Proofs.Utf8Bytes

/-!
# Insertion as whole lines

A member that is inserted anywhere in a text stands there as whole lines. What
is before and behind the place stays as it is up to blanks: if only blanks stand
before the place on its line nothing is taken away, and otherwise only the
spaces and tabs directly before the place are.

## Main statements

* `insertBetween_eq`: an inserted text is a front, the lines of the member each
  with its end, and the rest of the text behind a lead.
* `lines_append`, `lines_flatMap_end`: the lines of such a text.
* `insert_places_lines`: when an insertion fails, and what it makes of the text
  when it does not.

## Implementation notes

A line starts behind the front, and no line of the member holds a sign that ends
lines, so the lines of the result are those of its three parts. This needs that
the member has no carriage return, which would be read together with the line
feed behind it.
-/

namespace RecordText.Edit

open RecordText.Text

/-- Whether a character is no blank. -/
def isSign (c : Char) : Bool :=
  !isBlank c

/-- Whether a line starts behind a text: it is empty or ends with a line feed. -/
def StartsLineBehind (front : List Char) : Prop :=
  ∀ c ∈ front.getLast?, c = '\n'

/-- The line that a place between two parts of a text stands on. -/
def heldLine (before after : List Char) : List Char :=
  lastLine before ++ after.takeWhile (· ≠ '\n')

/-- The lines of a member as they stand at a place: each that is not empty goes behind the
indentation of the line that held the place and one unit more. -/
def insertedLines (before after member unit : List Char) : List (List Char) :=
  (lines member).map fun line =>
    if line.isEmpty then [] else indentation (heldLine before after) ++ unit ++ line

section Lines

theorem StartsLineBehind.tail {c : Char} {front : List Char} (h : StartsLineBehind (c :: front)) :
    StartsLineBehind front := by
  intro d hd
  apply h d
  rw [List.getLast?_cons, Option.mem_def.1 hd]
  rfl

theorem StartsLineBehind.append {front rest : List Char} (hfront : StartsLineBehind front)
    (hrest : StartsLineBehind rest) : StartsLineBehind (front ++ rest) := by
  intro c hc
  rw [List.getLast?_append, Option.mem_def, Option.or_eq_some_iff] at hc
  rcases hc with hlast | ⟨-, hlast⟩
  · exact hrest c hlast
  · exact hfront c hlast

theorem StartsLineBehind.getLast?_eq {front : List Char} (h : StartsLineBehind front)
    (hne : front ≠ []) : front.getLast? = some '\n' := by
  have hlast := List.getLast?_eq_some_getLast hne
  rw [hlast, h _ hlast]

theorem startsLineBehind_lineEnd (front text : List Char) :
    StartsLineBehind (front ++ lineEnd text) := by
  obtain ⟨more, hend⟩ := exists_lineEnd_eq text
  intro c hc
  rw [hend, ← List.append_assoc, List.getLast?_concat] at hc
  exact (Option.some.inj hc).symm

theorem startsLineBehind_beforeLastLine (text : List Char) :
    StartsLineBehind (beforeLastLine text) := by
  intro c hc
  rw [beforeLastLine, List.getLast?_reverse] at hc
  have hhead := List.head?_dropWhile_not (· ≠ '\n') text.reverse
  rw [Option.mem_def.1 hc] at hhead
  simpa using hhead

theorem lines_ne_nil (text : List Char) (h : text ≠ []) : lines text ≠ [] := by
  fun_cases lines text with
  | case1 => exact absurd rfl h
  | case2 rest => exact List.cons_ne_nil _ _
  | case3 rest => exact List.cons_ne_nil _ _
  | case4 c rest _ _ => cases lines rest <;> exact List.cons_ne_nil _ _

theorem consLine_append (c : Char) (parts more : List (List Char)) (h : parts ≠ []) :
    consLine c (parts ++ more) = consLine c parts ++ more := by
  cases parts with
  | nil => exact absurd rfl h
  | cons line parts => rfl

/-- The lines of a text behind which a line starts come before the lines of what follows. -/
theorem lines_append (front rest : List Char) (h : StartsLineBehind front) :
    lines (front ++ rest) = lines front ++ lines rest := by
  fun_induction lines front with
  | case1 => rfl
  | case2 front ih =>
      rw [List.cons_append, lines, ih h.tail]
      rfl
  | case3 front ih =>
      rw [List.cons_append, List.cons_append, lines, ih h.tail.tail]
      rfl
  | case4 c front hfeed hreturn ih =>
      have hne : front ≠ [] := by
        rintro rfl
        exact hfeed (h c rfl)
      have hcons : lines (c :: (front ++ rest)) = consLine c (lines (front ++ rest)) := by
        rw [lines]
        · exact hfeed
        · rintro more rfl hmore
          obtain ⟨d, tail, rfl⟩ := List.exists_cons_of_ne_nil hne
          obtain ⟨rfl, -⟩ := List.cons.inj hmore
          exact hreturn tail rfl rfl
      rw [List.cons_append, hcons, ih h.tail, consLine_append c _ _ (lines_ne_nil front hne)]

theorem lines_append_lineEnd (text line rest : List Char) (h : ∀ c ∈ line, isLineEnd c = false) :
    lines (line ++ (lineEnd text ++ rest)) = line :: lines rest := by
  unfold lineEnd
  split
  · induction line with
    | nil =>
        rw [List.nil_append, List.cons_append, List.singleton_append, lines]
    | cons c line ih =>
        rw [List.cons_append, lines_cons_of_not_isLineEnd c _ (h c (by simp)),
          ih fun d hd => h d (by simp [hd])]
        rfl
  · exact lines_append_end line rest (staysLine_of_not_isLineEnd line h)

/-- Lines that hold no line end are read as they were written. -/
theorem lines_flatMap_end (text : List Char) (parts : List (List Char)) (rest : List Char)
    (h : ∀ line ∈ parts, ∀ c ∈ line, isLineEnd c = false) :
    lines (parts.flatMap (· ++ lineEnd text) ++ rest) = parts ++ lines rest := by
  induction parts with
  | nil => rfl
  | cons line parts ih =>
      rw [List.flatMap_cons, List.append_assoc, List.append_assoc,
        lines_append_lineEnd text line _ (h line (by simp)),
        ih fun other hother => h other (by simp [hother])]
      rfl

theorem flatMap_filter_consLine (c : Char) (parts : List (List Char)) :
    (consLine c parts).flatMap (List.filter isSign) =
      [c].filter isSign ++ parts.flatMap (List.filter isSign) := by
  cases parts with
  | nil => rfl
  | cons line parts =>
      rw [consLine, List.flatMap_cons, List.flatMap_cons, ← List.append_assoc, ← List.filter_append]
      rfl

/-- Cutting a text into lines loses blanks only. -/
theorem flatMap_filter_lines (text : List Char) :
    (lines text).flatMap (List.filter isSign) = text.filter isSign := by
  fun_induction lines text with
  | case1 => rfl
  | case2 rest ih =>
      rw [List.flatMap_cons, ih]
      rfl
  | case3 rest ih =>
      rw [List.flatMap_cons, ih]
      rfl
  | case4 c rest _ _ ih =>
      rw [flatMap_filter_consLine, ih, ← List.filter_append]
      rfl

end Lines

section Signs

theorem filter_isSign_of_blank (text : List Char) (h : ∀ c ∈ text, isBlank c = true) :
    text.filter isSign = [] := by
  apply List.filter_eq_nil_iff.2
  intro c hc
  simp [isSign, h c hc]

/-- Only blanks stand between the kept front and the place. -/
theorem filter_isSign_keptFront (before : List Char) :
    (keptFront before).filter isSign = before.filter isSign := by
  have hblank := filter_isSign_of_blank (takenAway before ++ ownFront before) fun c hc =>
    (isBlank_of_mem_place before c hc).1
  conv_rhs => rw [← keptFront_append before, List.filter_append, hblank, List.append_nil]

/-- An empty line is due exactly if the last sign is there and is no opening brace. -/
theorem needsGap_iff (text : List Char) :
    needsGap text = true ↔ ∃ c ∈ (text.filter isSign).getLast?, c ≠ '\x7b' := by
  have hlast : (text.filter isSign).getLast? = (text.reverse.dropWhile isBlank).head? := by
    rw [List.getLast?_eq_head?_reverse, ← List.filter_reverse, List.head?_filter,
      List.find?_eq_head?_dropWhile_not]
    simp [isSign]
  rw [hlast, needsGap]
  cases text.reverse.dropWhile isBlank with
  | nil => simp
  | cons c rest => simp

end Signs

/-- The end of the line in front of an inserted member, if the line is broken there. -/
def breakEnd (before newline : List Char) : List Char :=
  if onOwnLine before then [] else newline

/-- What stands in front of the lines of an inserted member; a member without lines leaves an empty
one. -/
def insertedFront (before member newline : List Char) : List Char :=
  keptFront before ++ (breakEnd before newline ++
    (gapEnd before newline ++ (if (lines member).isEmpty then newline else [])))

/-- What stands behind an inserted member in front of the rest of the text. -/
def insertedLead (before after : List Char) : List Char :=
  if onOwnLine before then lastLine before else indentation (heldLine before after)

/-- The indentation of a line ends on the line. -/
theorem indentation_heldLine (before after : List Char) :
    indentation (heldLine before after) = indentation (lastLine before ++ after) := by
  have hafter : (after.takeWhile (· ≠ '\n')).takeWhile isIndentChar =
      after.takeWhile isIndentChar := by
    rw [List.takeWhile_takeWhile]
    congr 1
    funext c
    by_cases hc : isIndentChar c = true
    · simp [hc, ne_lineFeed_of_isIndentChar c hc]
    · simp [hc]
  rw [indentation, indentation, heldLine, List.takeWhile_append, List.takeWhile_append, hafter]

theorem reindent_append_newline (text indent newline : List Char) :
    reindent text indent newline ++ newline =
      (if (lines text).isEmpty then newline else []) ++
        ((lines text).map fun line => if line.isEmpty then [] else indent ++ line).flatMap
          (· ++ newline) := by
  rw [reindent]
  cases lines text with
  | nil => simp [joinWith]
  | cons line rest =>
      rw [List.map_cons, flatMap_end_eq_joinWith]
      rfl

/-- An inserted text is a front, the lines of the member each with its end, and the rest of the text
behind a lead. -/
theorem insertBetween_eq (before after member unit newline : List Char) :
    insertBetween before after member unit newline =
      insertedFront before member newline ++
        ((insertedLines before after member unit).flatMap (· ++ newline) ++
          (insertedLead before after ++ after)) := by
  have hparts : insertBetween before after member unit newline =
      keptFront before ++ (breakEnd before newline ++ (gapEnd before newline ++
        ((reindent member (indentation (heldLine before after) ++ unit) newline ++ newline) ++
          (insertedLead before after ++ after)))) := by
    simp only [insertBetween, ← indentation_heldLine, insertedLead, keptFront, breakEnd, gapEnd,
      onOwnLine]
    by_cases hline : allBlank (lastLine before) = true
    · simp only [hline, if_true, List.append_assoc, List.nil_append]
    · simp only [hline, Bool.false_eq_true, if_false, List.append_assoc]
  rw [hparts, reindent_append_newline, insertedFront, insertedLines]
  simp only [List.append_assoc]

theorem isLineEnd_of_mem_lineEnd (text : List Char) (c : Char) (h : c ∈ lineEnd text) :
    isLineEnd c = true := by
  unfold lineEnd at h
  split at h <;> revert c <;> decide

theorem filter_isSign_lineEnd (text : List Char) : (lineEnd text).filter isSign = [] :=
  filter_isSign_of_blank _ fun c hc => isBlank_of_isLineEnd c (isLineEnd_of_mem_lineEnd text c hc)

theorem not_isLineEnd_of_isIndentChar (c : Char) (h : isIndentChar c = true) :
    isLineEnd c = false := by
  simp only [isIndentChar, Bool.or_eq_true, beq_iff_eq] at h
  rcases h with rfl | rfl <;> decide

theorem isIndentChar_of_mem_indentation (text : List Char) (c : Char) (h : c ∈ indentation text) :
    isIndentChar c = true :=
  List.mem_takeWhile_imp h

/-- No line of a member without carriage returns holds a sign that ends lines. -/
theorem not_isLineEnd_of_mem_insertedLines (before after member unit : List Char)
    (hmember : '\r' ∉ member) (hunit : ∀ c ∈ unit, isIndentChar c = true) (line : List Char)
    (hline : line ∈ insertedLines before after member unit) (c : Char) (hc : c ∈ line) :
    isLineEnd c = false := by
  obtain ⟨old, hold, rfl⟩ := List.mem_map.1 hline
  split at hc
  · cases hc
  · rcases List.mem_append.1 hc with hfront | hin
    · rcases List.mem_append.1 hfront with hindent | hunit'
      · exact not_isLineEnd_of_isIndentChar c (isIndentChar_of_mem_indentation _ c hindent)
      · exact not_isLineEnd_of_isIndentChar c (hunit c hunit')
    · have hfeed : c ≠ '\n' := by
        rintro rfl
        exact not_mem_lines member old hold hin
      have hreturn : c ≠ '\r' := by
        rintro rfl
        exact hmember (mem_of_mem_lines member old hold _ hin)
      simp [isLineEnd, hfeed, hreturn]

section Front

variable (text before member : List Char)

/-- A line starts behind what is kept, once the line is broken. -/
theorem startsLineBehind_kept :
    StartsLineBehind (keptFront before ++ breakEnd before (lineEnd text)) := by
  unfold keptFront breakEnd
  split
  · rw [List.append_nil]
    exact startsLineBehind_beforeLastLine before
  · exact startsLineBehind_lineEnd _ text

theorem insertedFront_eq :
    insertedFront before member (lineEnd text) =
      (keptFront before ++ breakEnd before (lineEnd text)) ++
        (gapEnd before (lineEnd text) ++
          (if (lines member).isEmpty then lineEnd text else [])) := by
  rw [insertedFront, List.append_assoc]

theorem isLineEnd_of_mem_gap (c : Char)
    (h : c ∈ gapEnd before (lineEnd text) ++
      (if (lines member).isEmpty then lineEnd text else [])) : isLineEnd c = true := by
  rcases List.mem_append.1 h with hgap | hempty
  · exact isLineEnd_of_mem_lineEnd text c (mem_gapEnd before _ c hgap)
  · split at hempty
    · exact isLineEnd_of_mem_lineEnd text c hempty
    · cases hempty

theorem startsLineBehind_insertedFront :
    StartsLineBehind (insertedFront before member (lineEnd text)) := by
  have hempty : StartsLineBehind [] := fun c hc => by cases hc
  have hend : StartsLineBehind (lineEnd text) := startsLineBehind_lineEnd [] text
  rw [insertedFront_eq]
  apply (startsLineBehind_kept text before).append
  apply StartsLineBehind.append
  · unfold gapEnd
    split
    · exact hend
    · exact hempty
  · split
    · exact hend
    · exact hempty

/-- Where a gap is due, an empty line stands in front of the member. -/
theorem exists_gap_insertedFront (c : Char) (hc : c ∈ (before.filter isSign).getLast?)
    (hbrace : c ≠ '\x7b') :
    ∃ above, insertedFront before member (lineEnd text) = above ++ lineEnd text ∧
      above.getLast? = some '\n' := by
  have hkept := filter_isSign_keptFront before
  have hgap : gapEnd before (lineEnd text) = lineEnd text := by
    rw [gapEnd, if_pos ((needsGap_iff _).2 ⟨c, by rwa [hkept], hbrace⟩)]
  have hne : keptFront before ++ breakEnd before (lineEnd text) ≠ [] := by
    intro hnil
    rw [← hkept, (List.append_eq_nil_iff.1 hnil).1] at hc
    cases hc
  have hlast := (startsLineBehind_kept text before).getLast?_eq hne
  rw [insertedFront_eq, hgap]
  by_cases hlines : (lines member).isEmpty = true
  · refine ⟨(keptFront before ++ breakEnd before (lineEnd text)) ++ lineEnd text, ?_, ?_⟩
    · rw [if_pos hlines, ← List.append_assoc]
    · exact (startsLineBehind_lineEnd _ text).getLast?_eq (List.append_ne_nil_of_left_ne_nil hne _)
  · exact ⟨keptFront before ++ breakEnd before (lineEnd text), by rw [if_neg hlines]; simp, hlast⟩

/-- Where no gap is due, the member directly follows what is kept. -/
theorem insertedFront_of_no_gap
    (hbrace : ∀ c ∈ (before.filter isSign).getLast?, c = '\x7b') (hlines : lines member ≠ []) :
    insertedFront before member (lineEnd text) =
      keptFront before ++ breakEnd before (lineEnd text) := by
  have hgap : ¬ needsGap (keptFront before) = true := by
    rw [needsGap_iff, filter_isSign_keptFront]
    rintro ⟨c, hc, hne⟩
    exact hne (hbrace c hc)
  have hempty : ¬ (lines member).isEmpty = true := by
    rwa [List.isEmpty_iff]
  rw [insertedFront_eq, gapEnd, if_neg hgap, if_neg hempty, List.append_nil, List.append_nil]

end Front

theorem not_mem_insertedLead (before after : List Char) : '\n' ∉ insertedLead before after := by
  unfold insertedLead
  split
  · exact not_mem_lastLine before
  · intro hmem
    exact ne_lineFeed_of_isIndentChar '\n' (isIndentChar_of_mem_indentation _ _ hmem) rfl

theorem isBlank_of_mem_insertedLead (before after : List Char) (c : Char)
    (h : c ∈ insertedLead before after) : isBlank c = true := by
  unfold insertedLead at h
  split at h
  · rename_i hline
    exact List.all_eq_true.1 hline c h
  · exact isBlank_of_isIndentChar c (isIndentChar_of_mem_indentation _ c h)

/-- The lines of a member bring its signs and blanks only. -/
theorem filter_isSign_insertedLines (text before after member unit : List Char)
    (hunit : ∀ c ∈ unit, isIndentChar c = true) :
    ((insertedLines before after member unit).flatMap (· ++ lineEnd text)).filter isSign =
      member.filter isSign := by
  have hindent := filter_isSign_of_blank (indentation (heldLine before after)) fun c hc =>
    isBlank_of_isIndentChar c (isIndentChar_of_mem_indentation _ c hc)
  have hunit' := filter_isSign_of_blank unit fun c hc => isBlank_of_isIndentChar c (hunit c hc)
  rw [← flatMap_filter_lines member, insertedLines, List.filter_flatMap, List.flatMap_map]
  congr 1
  funext line
  rw [List.filter_append, filter_isSign_lineEnd, List.append_nil]
  split
  · rename_i hempty
    rw [List.isEmpty_iff.1 hempty]
  · rw [List.filter_append, List.filter_append, hindent, hunit', List.nil_append, List.nil_append]

theorem filter_isSign_insertedFront (text before member : List Char) :
    (insertedFront before member (lineEnd text)).filter isSign = before.filter isSign := by
  have hgap := filter_isSign_of_blank _ fun c hc =>
    isBlank_of_isLineEnd c (isLineEnd_of_mem_gap text before member c hc)
  have hbreak : (breakEnd before (lineEnd text)).filter isSign = [] := by
    unfold breakEnd
    split
    · rfl
    · exact filter_isSign_lineEnd text
  rw [insertedFront_eq, List.filter_append, List.filter_append, hgap, hbreak, List.append_nil,
    List.append_nil, filter_isSign_keptFront]

/-- An insertion keeps all signs of the text and brings in those of the member. -/
theorem filter_isSign_insertBetween (text before after member unit : List Char)
    (hunit : ∀ c ∈ unit, isIndentChar c = true) :
    (insertBetween before after member unit (lineEnd text)).filter isSign =
      before.filter isSign ++ (member.filter isSign ++ after.filter isSign) := by
  have hlead := filter_isSign_of_blank _ (isBlank_of_mem_insertedLead before after)
  rw [insertBetween_eq, List.filter_append, List.filter_append, List.filter_append, hlead,
    filter_isSign_insertedFront, filter_isSign_insertedLines _ _ _ _ _ hunit, List.nil_append]

/-- Whether lines stand as whole lines at a place between two parts of a text: they follow a front
and come before the line that holds the second part, behind a lead. An empty line comes before them
if the last sign before the place is there and is no opening brace, and only then. On a line of its
own the place keeps all that stood before it; on a line that is broken there, spaces and tabs are
dropped and the indentation of the line is the lead. -/
structure PlacesLines (before after newline : List Char) (inserted : List (List Char))
    (front lead result : List Char) : Prop where
  result_eq : result = front ++ (inserted.flatMap (· ++ newline) ++ (lead ++ after))
  lines_eq : lines result = lines front ++ (inserted ++ lines (lead ++ after))
  front_ends : StartsLineBehind front
  lead_feed : '\n' ∉ lead
  gap : ∀ c ∈ (before.filter isSign).getLast?, c ≠ '\x7b' →
    ∃ above, front = above ++ newline ∧ above.getLast? = some '\n'
  no_gap : (∀ c ∈ (before.filter isSign).getLast?, c = '\x7b') → inserted ≠ [] →
    front = keptFront before ++ breakEnd before newline
  own_line : allBlank (lastLine before) = true → lead = lastLine before ∧
    ∃ added, front = beforeLastLine before ++ added ∧ ∀ c ∈ added, isLineEnd c = true
  broken_line : allBlank (lastLine before) = false → lead = indentation (heldLine before after) ∧
    ∃ added, front = trimIndentation before ++ (newline ++ added) ∧ ∀ c ∈ added, isLineEnd c = true

theorem placesLines_insertBetween (text before after member unit : List Char)
    (hmember : '\r' ∉ member) (hunit : ∀ c ∈ unit, isIndentChar c = true) :
    PlacesLines before after (lineEnd text) (insertedLines before after member unit)
      (insertedFront before member (lineEnd text)) (insertedLead before after)
      (insertBetween before after member unit (lineEnd text)) := by
  have hfront := startsLineBehind_insertedFront text before member
  have hgap := isLineEnd_of_mem_gap text before member
  constructor
  case result_eq => exact insertBetween_eq before after member unit (lineEnd text)
  case lines_eq =>
    rw [insertBetween_eq, lines_append _ _ hfront, lines_flatMap_end]
    exact not_isLineEnd_of_mem_insertedLines before after member unit hmember hunit
  case front_ends => exact hfront
  case lead_feed => exact not_mem_insertedLead before after
  case gap => exact exists_gap_insertedFront text before member
  case no_gap =>
    intro hbrace hinserted
    apply insertedFront_of_no_gap text before member hbrace
    intro hlines
    rw [insertedLines, hlines] at hinserted
    exact hinserted rfl
  case own_line =>
    intro hline
    have hown : onOwnLine before = true := hline
    refine ⟨if_pos hown, _, ?_, hgap⟩
    rw [insertedFront, keptFront, if_pos hown, breakEnd, if_pos hown, List.nil_append]
  case broken_line =>
    intro hline
    have hbroken : ¬ onOwnLine before = true := by
      rw [onOwnLine, hline]
      exact Bool.false_ne_true
    refine ⟨if_neg hbroken, _, ?_, hgap⟩
    rw [insertedFront, keptFront, if_neg hbroken, breakEnd, if_neg hbroken]

section Outcomes

variable (text : String) (offset : Nat) (member unit : String)

theorem insert_of_lt (h : text.utf8ByteSize < offset) :
    Edit.insert text offset member unit =
      .error (.outOfBounds offset text.utf8ByteSize) := by
  rw [utf8ByteSize_eq] at h ⊢
  rw [Edit.insert, insertChars, if_pos h]
  rfl

theorem insert_of_not_isBoundary (hle : offset ≤ text.utf8ByteSize)
    (h : ¬ IsBoundary text offset) :
    Edit.insert text offset member unit = .error (.insideCharacter offset) := by
  rw [utf8ByteSize_eq] at hle
  rw [Edit.insert, insertChars, if_neg (by omega)]
  cases hcut : cutAt? text.toList offset with
  | none => rfl
  | some parts =>
      obtain ⟨htext, hoffset⟩ := eq_append_of_cutAt? _ _ parts.1 parts.2 hcut
      exact absurd ((isBoundary_iff text offset).2 ⟨_, _, htext, hoffset⟩) h

theorem insert_of_append (before after : List Char) (htext : text.toList = before ++ after)
    (hoffset : byteLength before = offset) :
    Edit.insert text offset member unit = .ok (String.ofList
      (insertBetween before after member.toList unit.toList (lineEnd text.toList))) := by
  subst hoffset
  have hbound : ¬ byteLength text.toList < byteLength before := by
    rw [htext, byteLength_append]
    omega
  have hcut : cutAt? text.toList (byteLength before) = some (before, after) := by
    rw [htext]
    exact cutAt?_append before after
  rw [Edit.insert, insertChars, if_neg hbound, hcut]
  rfl

end Outcomes

/-- An insertion fails for an offset behind the end of the text and for one inside a character, and
for no other. Otherwise the result has the signs of the text before the offset, of the member and
of the text behind the offset, and the lines of the member stand in it as whole lines. -/
theorem insert_places_lines (text : String) (offset : Nat) (member unit : String)
    (hmember : '\r' ∉ member.toList) (hunit : ∀ c ∈ unit.toList, isIndentChar c = true) :
    (Edit.insert text offset member unit = .error (.outOfBounds offset text.utf8ByteSize) ↔
      text.utf8ByteSize < offset) ∧
    (Edit.insert text offset member unit = .error (.insideCharacter offset) ↔
      offset ≤ text.utf8ByteSize ∧ ¬ IsBoundary text offset) ∧
    (IsBoundary text offset → ∃ before after result, text.toList = before ++ after ∧
      byteLength before = offset ∧ Edit.insert text offset member unit = .ok result ∧
      result.toList.filter isSign =
        before.filter isSign ++ (member.toList.filter isSign ++ after.filter isSign) ∧
      ∃ front lead, PlacesLines before after (lineEnd text.toList)
        (insertedLines before after member.toList unit.toList) front lead result.toList) := by
  by_cases hlt : text.utf8ByteSize < offset
  · have herror := insert_of_lt text offset member unit hlt
    have hnot : ¬ IsBoundary text offset := fun hboundary =>
      absurd hboundary.le_utf8ByteSize (Nat.not_le_of_lt hlt)
    refine ⟨iff_of_true herror hlt, iff_of_false (by simp [herror]) ?_,
      fun hboundary => absurd hboundary hnot⟩
    rintro ⟨hle, -⟩
    exact Nat.not_le_of_lt hlt hle
  · by_cases hboundary : IsBoundary text offset
    · obtain ⟨before, after, htext, hoffset⟩ := (isBoundary_iff text offset).1 hboundary
      have hok := insert_of_append text offset member unit before after htext hoffset
      refine ⟨iff_of_false (by simp [hok]) hlt, iff_of_false (by simp [hok]) (by simp [hboundary]),
        fun _ => ⟨before, after, _, htext, hoffset, hok, ?_⟩⟩
      rw [String.toList_ofList]
      exact ⟨filter_isSign_insertBetween _ before after _ _ hunit, _, _,
        placesLines_insertBetween _ before after _ _ hmember hunit⟩
    · have herror :=
        insert_of_not_isBoundary text offset member unit (Nat.le_of_not_lt hlt) hboundary
      exact ⟨iff_of_false (by simp [herror]) hlt,
        iff_of_true herror ⟨Nat.le_of_not_lt hlt, hboundary⟩,
        fun hboundary' => absurd hboundary' hboundary⟩

/-- Two lines with an empty one between them go into a line that is broken in front of its brace. -/
theorem insert_places_lines_broken :
    ('\r' ∉ "a\n\nb".toList ∧ ∀ c ∈ "  ".toList, isIndentChar c = true) ∧
      IsBoundary "\tclass É \x7b int x; \x7d" 19 ∧
      ∃ before after result, "\tclass É \x7b int x; \x7d".toList = before ++ after ∧
        byteLength before = 19 ∧
        Edit.insert "\tclass É \x7b int x; \x7d" 19 "a\n\nb" "  " = .ok result ∧
        result.toList.filter isSign =
          before.filter isSign ++ ("a\n\nb".toList.filter isSign ++ after.filter isSign) ∧
        ∃ front lead, PlacesLines before after
          (lineEnd "\tclass É \x7b int x; \x7d".toList)
          (insertedLines before after "a\n\nb".toList "  ".toList) front lead result.toList := by
  have hboundary : IsBoundary "\tclass É \x7b int x; \x7d" 19 :=
    (isBoundary_iff _ _).2 ⟨"\tclass É \x7b int x; ".toList, ['\x7d'], by decide, by decide⟩
  refine ⟨⟨by decide, by decide⟩, hboundary, ?_⟩
  exact (insert_places_lines _ 19 "a\n\nb" "  " (by decide) (by decide)).2.2 hboundary

end RecordText.Edit
