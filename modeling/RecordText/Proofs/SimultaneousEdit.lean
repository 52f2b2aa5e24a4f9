import RecordText.Proofs.CompletionPlan
import RecordText.Proofs.MemberLines

/-!
# Insertions all at once

Insertions are carried out one after the other, each on the text that the ones
before it have left. The result can be described without that order: every
class that asks for a member stands for a change of the original text, which
removes a run of spaces and tabs and adds some text at a place, and all changes
are made at once.

## Implementation notes

A change is read off the original text alone. That it is still the same change
when its turn comes rests on two facts: the text up to an earlier closing brace
is not touched, and the insertions do not change which line ends the text has.
-/

namespace RecordText.Edit

open RecordText.Text
open RecordText.Source

/-- A change of a text: from a byte offset on some bytes are removed, and text is added there. -/
structure Change where
  start : Nat
  removed : Nat
  added : List Char
  deriving DecidableEq, Repr

/-- Whether a change removes the character at a byte offset. -/
def Change.removes (change : Change) (offset : Nat) : Bool :=
  decide (change.start ≤ offset) && decide (offset < change.start + change.removed)

/-- What some changes add at a byte offset. -/
def addedAt (changes : List Change) (offset : Nat) : List Char :=
  (changes.filter fun change => change.start == offset).flatMap Change.added

/-- The part of a text that some changes leave, `offset` being the byte offset of its start. -/
def remaining (changes : List Change) (offset : Nat) : List Char → List Char
  | [] => []
  | c :: rest =>
    (if changes.any fun change => change.removes offset then [] else [c]) ++
      remaining changes (offset + c.utf8Size) rest

/-- A part of a text with all changes made that start in it. -/
def changedPart (changes : List Change) (offset : Nat) : List Char → List Char
  | [] => []
  | c :: rest =>
    addedAt changes offset ++
      ((if changes.any fun change => change.removes offset then [] else [c]) ++
        changedPart changes (offset + c.utf8Size) rest)

/-- A text with all changes made at once. -/
def changed (changes : List Change) (text : List Char) : List Char :=
  changedPart changes 0 text ++ addedAt changes (byteLength text)

/-- The text before a byte offset. -/
def beforeOffset (text : List Char) (offset : Nat) : List Char :=
  match cutAt? text offset with
  | some (before, _) => before
  | none => []

/-- The change that an insertion makes, read off the text. -/
def changeFor (text unit : List Char) (insertion : Insertion) : Change :=
  let before := beforeOffset text insertion.offset
  { start := byteLength (keptFront before)
    removed := byteLength (takenAway before)
    added := addedText before insertion.member.text.toList unit (lineEnd text) }

/-- What is not removed stays, in order. -/
theorem remaining_sublist_changedPart (changes : List Change) (offset : Nat) (text : List Char) :
    (remaining changes offset text).Sublist (changedPart changes offset text) := by
  induction text generalizing offset with
  | nil => exact List.Sublist.refl _
  | cons c rest ih =>
      rw [remaining, changedPart]
      exact ((List.Sublist.refl _).append (ih _)).trans (List.sublist_append_right _ _)

theorem changedPart_append (changes : List Change) (offset : Nat) (front back : List Char) :
    changedPart changes offset (front ++ back) =
      changedPart changes offset front ++ changedPart changes (offset + byteLength front) back := by
  induction front generalizing offset with
  | nil => rfl
  | cons c front ih =>
      simp only [List.cons_append, changedPart, ih, byteLength, List.append_assoc, Nat.add_assoc]

/-- Changes that agree at all offsets of a part change it in the same way. -/
theorem changedPart_congr (changes changes' : List Change) (offset : Nat) (text : List Char)
    (h : ∀ place, offset ≤ place → place < offset + byteLength text →
      addedAt changes place = addedAt changes' place ∧
        (changes.any fun change => change.removes place) =
          changes'.any fun change => change.removes place) :
    changedPart changes offset text = changedPart changes' offset text := by
  induction text generalizing offset with
  | nil => rfl
  | cons c rest ih =>
      have hpos : 0 < c.utf8Size := c.utf8Size_pos
      simp only [byteLength] at h
      obtain ⟨hadded, hremoves⟩ := h offset (Nat.le_refl _) (by omega)
      rw [changedPart, changedPart, hadded, hremoves,
        ih _ fun place hle hlt => h place (by omega) (by omega)]

theorem addedAt_eq_nil (changes : List Change) (offset : Nat)
    (h : ∀ change ∈ changes, change.start ≠ offset) : addedAt changes offset = [] := by
  have hfilter : changes.filter (fun change => change.start == offset) = [] := by
    rw [List.filter_eq_nil_iff]
    intro change hchange
    simpa using h change hchange
  rw [addedAt, hfilter, List.flatMap_nil]

theorem any_removes_eq_false (changes : List Change) (offset : Nat)
    (h : ∀ change ∈ changes, offset < change.start ∨ change.start + change.removed ≤ offset) :
    (changes.any fun change => change.removes offset) = false := by
  rw [List.any_eq_false]
  intro change hchange
  simp only [Change.removes, Bool.and_eq_true, decide_eq_true_eq, not_and, not_lt]
  have := h change hchange
  omega

/-- A part of the text behind all changes stays as it is. -/
theorem changedPart_behind (changes : List Change) (offset : Nat) (text : List Char)
    (h : ∀ change ∈ changes,
      change.start < offset ∧ change.start + change.removed ≤ offset) :
    changedPart changes offset text = text := by
  induction text generalizing offset with
  | nil => rfl
  | cons c rest ih =>
      have hrest : ∀ change ∈ changes, change.start < offset + c.utf8Size ∧
          change.start + change.removed ≤ offset + c.utf8Size := by
        intro change hchange
        have := h change hchange
        omega
      rw [changedPart, addedAt_eq_nil _ _ fun change hchange => (h change hchange).1.ne,
        any_removes_eq_false _ _ fun change hchange => Or.inr (h change hchange).2, ih _ hrest]
      rfl

/-- Behind its start a change removes the rest of its run. -/
theorem changedPart_removed (change : Change) (offset : Nat) (run : List Char)
    (hstart : change.start < offset)
    (hrun : offset + byteLength run ≤ change.start + change.removed) :
    changedPart [change] offset run = [] := by
  induction run generalizing offset with
  | nil => rfl
  | cons c run ih =>
      have hpos : 0 < c.utf8Size := c.utf8Size_pos
      simp only [byteLength] at hrun
      have hremoves : [change].any (fun change => change.removes offset) = true := by
        simp only [List.any_cons, List.any_nil, Bool.or_false, Change.removes, Bool.and_eq_true,
          decide_eq_true_eq]
        omega
      rw [changedPart, hremoves, addedAt_eq_nil [change] offset (by simpa using hstart.ne),
        ih _ (by omega) (by omega)]
      rfl

/-- A change replaces its run by the text that it adds. -/
theorem changedPart_run (start : Nat) (run added : List Char) (c : Char) (rest : List Char) :
    changedPart [{ start, removed := byteLength run, added }] start (run ++ c :: rest) =
      added ++ c :: rest := by
  have hadded : addedAt [{ start, removed := byteLength run, added }] start = added := by
    simp [addedAt]
  have hpos : 0 < c.utf8Size := c.utf8Size_pos
  cases run with
  | nil =>
      have hremoves : [({ start, removed := 0, added } : Change)].any
          (fun change => change.removes start) = false := by
        simp [Change.removes]
      rw [List.nil_append, changedPart, hadded]
      simp only [byteLength, hremoves, Bool.false_eq_true, if_false]
      rw [changedPart_behind _ _ rest (by simp; omega)]
      rfl
  | cons d run =>
      have hpos' : 0 < d.utf8Size := d.utf8Size_pos
      have hremoves : [({ start, removed := byteLength (d :: run), added } : Change)].any
          (fun change => change.removes start) = true := by
        simp only [List.any_cons, List.any_nil, Bool.or_false, Change.removes, Bool.and_eq_true,
          decide_eq_true_eq, byteLength]
        omega
      rw [List.cons_append, changedPart, hadded, hremoves, changedPart_append,
        changedPart_removed _ _ run (by simpa using hpos') (by simp only [byteLength]; omega),
        changedPart_behind _ _ (c :: rest) (by simp [byteLength]; omega)]
      rfl

theorem addedAt_cons (change : Change) (changes : List Change) (offset : Nat) :
    addedAt (change :: changes) offset =
      (if change.start = offset then change.added else []) ++ addedAt changes offset := by
  by_cases h : change.start = offset
  · simp [addedAt, h]
  · simp [addedAt, h]

/-- The last change can be made first. -/
theorem changed_cons (earlier : List Change) (kept run added : List Char) (c : Char)
    (rest : List Char)
    (h : ∀ change ∈ earlier, change.start + change.removed < byteLength kept) :
    changed ({ start := byteLength kept, removed := byteLength run, added } :: earlier)
        (kept ++ (run ++ c :: rest)) =
      changed earlier (kept ++ (added ++ c :: rest)) := by
  have hpos : 0 < c.utf8Size := c.utf8Size_pos
  have hbehind : ∀ change ∈ earlier, change.start < byteLength kept ∧
      change.start + change.removed ≤ byteLength kept := by
    intro change hchange
    have := h change hchange
    omega
  have hfront : changedPart
        ({ start := byteLength kept, removed := byteLength run, added } :: earlier) 0 kept =
      changedPart earlier 0 kept := by
    apply changedPart_congr
    intro place _ hlt
    constructor
    · rw [addedAt_cons, if_neg (by simp only; omega), List.nil_append]
    · rw [List.any_cons]
      have hfirst : Change.removes { start := byteLength kept, removed := byteLength run, added }
          place = false := by
        simp only [Change.removes, Bool.and_eq_false_iff, decide_eq_false_iff_not]
        omega
      rw [hfirst, Bool.false_or]
  have hplace : changedPart
        ({ start := byteLength kept, removed := byteLength run, added } :: earlier)
        (byteLength kept) (run ++ c :: rest) = added ++ c :: rest := by
    rw [← changedPart_run (byteLength kept) run added c rest]
    apply changedPart_congr
    intro place hle _
    constructor
    · have hearlier := addedAt_eq_nil earlier place fun change hchange => by
        have := hbehind change hchange
        omega
      rw [addedAt_cons, addedAt_cons, hearlier]
      rfl
    · have hearlier := any_removes_eq_false earlier place fun change hchange => by
        have := hbehind change hchange
        omega
      rw [List.any_cons, List.any_cons, hearlier, List.any_nil]
  have hend : ∀ text, addedAt earlier (byteLength (kept ++ text)) = [] := by
    intro text
    apply addedAt_eq_nil
    intro change hchange
    have := h change hchange
    rw [byteLength_append]
    omega
  have hlast : byteLength kept ≠ byteLength (kept ++ (run ++ c :: rest)) := by
    simp only [byteLength_append, byteLength]
    omega
  calc changed ({ start := byteLength kept, removed := byteLength run, added } :: earlier)
        (kept ++ (run ++ c :: rest))
      = changedPart earlier 0 kept ++ (added ++ c :: rest) := by
        rw [changed, changedPart_append, hfront, Nat.zero_add, hplace, addedAt_cons, if_neg hlast,
          hend, List.append_nil, List.append_nil]
    _ = changed earlier (kept ++ (added ++ c :: rest)) := by
        rw [changed, changedPart_append, Nat.zero_add, changedPart_behind _ _ _ hbehind, hend,
          List.append_nil]

theorem hasCarriageReturnLineFeed_cons (c : Char) (text : List Char)
    (h : hasCarriageReturnLineFeed text = true) : hasCarriageReturnLineFeed (c :: text) = true := by
  rw [hasCarriageReturnLineFeed.eq_def]
  split
  · contradiction
  · rfl
  · rename_i heq
    obtain ⟨rfl, rfl⟩ := List.cons.inj heq
    exact h

theorem hasCarriageReturnLineFeed_append (front back : List Char) :
    hasCarriageReturnLineFeed (front ++ '\r' :: '\n' :: back) = true := by
  induction front with
  | nil => rw [List.nil_append, hasCarriageReturnLineFeed]
  | cons c front ih => exact hasCarriageReturnLineFeed_cons c _ ih

theorem hasCarriageReturnLineFeed_eq_false (text : List Char) (h : '\r' ∉ text) :
    hasCarriageReturnLineFeed text = false := by
  fun_induction hasCarriageReturnLineFeed text with
  | case1 => rfl
  | case2 => simp at h
  | case3 c rest _ ih => exact ih fun hmem => h (by simp [hmem])

/-- A text with uniform line ends: it has carriage returns before line feeds, or no carriage return
at all. -/
def UniformEnds (text : List Char) : Prop :=
  hasCarriageReturnLineFeed text = true ∨ '\r' ∉ text

instance (text : List Char) : Decidable (UniformEnds text) :=
  inferInstanceAs (Decidable (_ ∨ _))

theorem mem_of_mem_lines (text line : List Char) (h : line ∈ lines text) (c : Char)
    (hc : c ∈ line) : c ∈ text := by
  fun_induction lines text generalizing line with
  | case1 => simp at h
  | case2 rest ih =>
      rcases List.mem_cons.1 h with rfl | hrest
      · cases hc
      · exact List.mem_cons_of_mem _ (ih line hrest hc)
  | case3 rest ih =>
      rcases List.mem_cons.1 h with rfl | hrest
      · cases hc
      · exact List.mem_cons_of_mem _ (List.mem_cons_of_mem _ (ih line hrest hc))
  | case4 d rest _ _ ih =>
      cases hlines : lines rest with
      | nil =>
          simp only [hlines, consLine, List.mem_singleton] at h
          subst h
          exact List.mem_cons.2 (Or.inl (List.mem_singleton.1 hc))
      | cons first others =>
          simp only [hlines, consLine, List.mem_cons] at h
          rcases h with rfl | hother
          · rcases List.mem_cons.1 hc with rfl | hin
            · simp
            · exact List.mem_cons_of_mem _ (ih first (by simp [hlines]) hin)
          · exact List.mem_cons_of_mem _ (ih line (by simp [hlines, hother]) hc)

theorem mem_joinWith (sep : List Char) (texts : List (List Char)) (c : Char)
    (h : c ∈ joinWith sep texts) : c ∈ sep ∨ ∃ text ∈ texts, c ∈ text := by
  cases texts with
  | nil => cases h
  | cons first rest =>
      rw [joinWith_cons] at h
      rcases List.mem_append.1 h with hin | hin
      · exact Or.inr ⟨first, by simp, hin⟩
      · obtain ⟨text, htext, hc⟩ := List.mem_flatMap.1 hin
        rcases List.mem_append.1 hc with hsep | hc
        · exact Or.inl hsep
        · exact Or.inr ⟨text, by simp [htext], hc⟩

/-- Indenting lines again brings in no signs but those of the indentation and the line ends. -/
theorem mem_reindent (text indent newline : List Char) (c : Char)
    (h : c ∈ reindent text indent newline) : c ∈ text ∨ c ∈ indent ∨ c ∈ newline := by
  rcases mem_joinWith _ _ c h with hnewline | ⟨line, hline, hc⟩
  · exact Or.inr (Or.inr hnewline)
  · obtain ⟨old, hold, rfl⟩ := List.mem_map.1 hline
    split at hc
    · cases hc
    · rcases List.mem_append.1 hc with hin | hin
      · exact Or.inr (Or.inl hin)
      · exact Or.inl (mem_of_mem_lines text old hold c hin)

/-- Every insertion adds a line end. -/
theorem exists_newline_addedText (before member unit newline : List Char) :
    ∃ front back, addedText before member unit newline = front ++ (newline ++ back) := by
  by_cases hline : onOwnLine before = true
  · refine ⟨gapEnd before newline ++
      reindent member (indentation (lastLine before) ++ unit) newline, [], ?_⟩
    rw [addedText_of_onOwnLine _ _ _ _ hline, List.append_nil, List.append_assoc]
  · exact ⟨[], _, addedText_of_not_onOwnLine _ _ _ _ hline⟩

theorem mem_addedText (before member unit newline : List Char) (c : Char)
    (h : c ∈ addedText before member unit newline) :
    c ∈ member ∨ isIndentChar c = true ∨ c ∈ unit ∨ c ∈ newline := by
  have hindent : c ∈ indentation (lastLine before) → isIndentChar c = true :=
    List.mem_takeWhile_imp
  have hblock : c ∈ reindent member (indentation (lastLine before) ++ unit) newline →
      c ∈ member ∨ isIndentChar c = true ∨ c ∈ unit ∨ c ∈ newline := by
    intro hin
    rcases mem_reindent _ _ _ c hin with hmember | hfront | hnewline
    · exact Or.inl hmember
    · rcases List.mem_append.1 hfront with hfront | hunit
      · exact Or.inr (Or.inl (hindent hfront))
      · exact Or.inr (Or.inr (Or.inl hunit))
    · exact Or.inr (Or.inr (Or.inr hnewline))
  have hnewline : c ∈ newline → c ∈ member ∨ isIndentChar c = true ∨ c ∈ unit ∨ c ∈ newline :=
    fun hin => Or.inr (Or.inr (Or.inr hin))
  by_cases hline : onOwnLine before = true
  · rw [addedText_of_onOwnLine _ _ _ _ hline] at h
    rcases List.mem_append.1 h with hin | h
    · exact hnewline (mem_gapEnd before newline c hin)
    · rcases List.mem_append.1 h with hin | hin
      · exact hblock hin
      · exact hnewline hin
  · rw [addedText_of_not_onOwnLine _ _ _ _ hline] at h
    rcases List.mem_append.1 h with hin | h
    · exact hnewline hin
    rcases List.mem_append.1 h with hin | h
    · exact hnewline (mem_gapEnd before newline c hin)
    rcases List.mem_append.1 h with hin | h
    · exact hblock hin
    rcases List.mem_append.1 h with hin | hin
    · exact hnewline hin
    · exact Or.inr (Or.inl (hindent hin))

/-- Insertions keep line ends uniform and of the same kind. -/
theorem uniformEnds_insert (before after member unit : List Char)
    (hends : UniformEnds (before ++ '\x7d' :: after)) (hmember : '\r' ∉ member)
    (hunit : ∀ c ∈ unit, isIndentChar c = true) :
    UniformEnds (keptFront before ++
        (addedText before member unit (lineEnd (before ++ '\x7d' :: after)) ++
          (ownFront before ++ '\x7d' :: after))) ∧
      lineEnd (keptFront before ++
          (addedText before member unit (lineEnd (before ++ '\x7d' :: after)) ++
            (ownFront before ++ '\x7d' :: after))) =
        lineEnd (before ++ '\x7d' :: after) := by
  rcases hends with hends | hends
  · obtain ⟨front, back, hadded⟩ := exists_newline_addedText before member unit
      (lineEnd (before ++ '\x7d' :: after))
    have hline : lineEnd (before ++ '\x7d' :: after) = ['\r', '\n'] := by rw [lineEnd, if_pos hends]
    rw [hadded, hline]
    have hresult := hasCarriageReturnLineFeed_append (keptFront before ++ front)
      (back ++ (ownFront before ++ '\x7d' :: after))
    simp only [List.append_assoc] at hresult
    simp only [List.append_assoc, List.cons_append, List.nil_append]
    exact ⟨Or.inl hresult, by rw [lineEnd, if_pos hresult]⟩
  · have hnone := hasCarriageReturnLineFeed_eq_false _ hends
    have hline : lineEnd (before ++ '\x7d' :: after) = ['\n'] := by
      rw [lineEnd, hnone]
      rfl
    rw [hline]
    have hbefore : '\r' ∉ keptFront before ++ (takenAway before ++ ownFront before) := by
      rw [keptFront_append]
      intro hmem
      exact hends (by simp [hmem])
    have hadded : '\r' ∉ addedText before member unit ['\n'] := by
      intro hmem
      rcases mem_addedText _ _ _ _ _ hmem with hin | hin | hin | hin
      · exact hmember hin
      · revert hin
        decide
      · have := hunit _ hin
        revert this
        decide
      · revert hin
        decide
    have hresult : '\r' ∉ keptFront before ++ (addedText before member unit ['\n'] ++
        (ownFront before ++ '\x7d' :: after)) := by
      simp only [List.mem_append, not_or] at hbefore hends ⊢
      exact ⟨hbefore.1, hadded, hbefore.2.2, hends.2⟩
    refine ⟨Or.inr hresult, ?_⟩
    rw [lineEnd, hasCarriageReturnLineFeed_eq_false _ hresult]
    rfl

theorem beforeOffset_append (before after : List Char) :
    beforeOffset (before ++ after) (byteLength before) = before := by
  rw [beforeOffset, cutAt?_append]

/-- The change for an insertion at a closing brace depends on the text before the brace and on the
line ends. -/
theorem changeFor_append (before after unit : List Char) (insertion : Insertion)
    (h : byteLength before = insertion.offset) :
    changeFor (before ++ after) unit insertion =
      { start := byteLength (keptFront before)
        removed := byteLength (takenAway before)
        added := addedText before insertion.member.text.toList unit
          (lineEnd (before ++ after)) } := by
  rw [changeFor, ← h, beforeOffset_append]

theorem changed_nil (text : List Char) : changed [] text = text := by
  rw [changed, changedPart_behind [] 0 text (by simp), addedAt_eq_nil [] _ (by simp),
    List.append_nil]

/-- Making the last change first is inserting at the last closing brace. -/
theorem changed_changeFor_cons (before after unit : List Char) (insertion : Insertion)
    (earlier : List Change) (hoffset : byteLength before = insertion.offset)
    (h : ∀ change ∈ earlier, change.start + change.removed < byteLength (keptFront before)) :
    changed (changeFor (before ++ '\x7d' :: after) unit insertion :: earlier)
        (before ++ '\x7d' :: after) =
      changed earlier (keptFront before ++ (addedText before insertion.member.text.toList unit
        (lineEnd (before ++ '\x7d' :: after)) ++ (ownFront before ++ '\x7d' :: after))) := by
  rw [changeFor_append before _ unit insertion hoffset]
  generalize addedText before insertion.member.text.toList unit
    (lineEnd (before ++ '\x7d' :: after)) = added
  obtain ⟨c, rest, hrest⟩ : ∃ c rest, ownFront before ++ '\x7d' :: after = c :: rest :=
    List.exists_cons_of_ne_nil (by simp)
  have htext : before ++ '\x7d' :: after =
      keptFront before ++ (takenAway before ++ c :: rest) := by
    calc before ++ '\x7d' :: after
        = keptFront before ++ (takenAway before ++ ownFront before) ++ '\x7d' :: after := by
          rw [keptFront_append]
      _ = keptFront before ++ (takenAway before ++ (ownFront before ++ '\x7d' :: after)) := by simp
      _ = keptFront before ++ (takenAway before ++ c :: rest) := by rw [hrest]
  rw [htext, hrest]
  exact changed_cons earlier (keptFront before) (takenAway before) added c rest h

/-- An insertion in front of a closing brace makes the change that is read off the text. -/
theorem insertChars_eq_changed (text unit : List Char) (insertion : Insertion)
    (h : ClosesText text insertion.offset) :
    insertChars text insertion.offset insertion.member.text.toList unit =
      .ok (changed [changeFor text unit insertion] text) := by
  obtain ⟨before, after, rfl, hoffset⟩ := h
  rw [changed_changeFor_cons before after unit insertion [] hoffset (by simp), changed_nil,
    ← hoffset]
  exact insertChars_closing before after _ unit

/-- The change at an earlier closing brace lies in the kept front. -/
theorem changeFor_end_lt (before after unit : List Char) (other : Insertion)
    (hcloses : ClosesText (before ++ '\x7d' :: after) other.offset)
    (hlt : other.offset < byteLength before) :
    (changeFor (before ++ '\x7d' :: after) unit other).start +
        (changeFor (before ++ '\x7d' :: after) unit other).removed <
      byteLength (keptFront before) := by
  obtain ⟨front, behind, htext, hfront⟩ := hcloses
  obtain ⟨more, hbefore⟩ :=
    exists_append_of_byteLength_lt before _ front behind htext (by rwa [hfront])
  obtain ⟨between, hkept, -⟩ := exists_keptFront_eq before front more hbefore
  have hlength := congrArg byteLength (keptFront_append front)
  rw [htext, changeFor_append front ('\x7d' :: behind) unit other hfront, hkept]
  simp only [byteLength_append, byteLength, utf8Size_close] at hlength ⊢
  omega

/-- The change at an earlier closing brace is the same before and after an insertion. -/
theorem changeFor_insert (before after unit added : List Char) (other : Insertion)
    (hcloses : ClosesText (before ++ '\x7d' :: after) other.offset)
    (hlt : other.offset < byteLength before)
    (hends : lineEnd (keptFront before ++ added) = lineEnd (before ++ '\x7d' :: after)) :
    changeFor (keptFront before ++ added) unit other =
      changeFor (before ++ '\x7d' :: after) unit other := by
  obtain ⟨front, behind, htext, hfront⟩ := hcloses
  obtain ⟨more, hbefore⟩ :=
    exists_append_of_byteLength_lt before _ front behind htext (by rwa [hfront])
  obtain ⟨between, hkept, -⟩ := exists_keptFront_eq before front more hbefore
  have hresult : keptFront before ++ added = front ++ '\x7d' :: (between ++ added) := by
    rw [hkept, List.append_assoc, List.cons_append]
  rw [htext, hresult] at hends
  rw [htext, hresult, changeFor_append front _ unit other hfront,
    changeFor_append front _ unit other hfront, hends]

/-- Insertions at closing braces, from the last to the first, make all their changes at once. -/
theorem applyInsertions_eq_changed (unit text : List Char) (insertions : List Insertion)
    (hunit : ∀ c ∈ unit, isIndentChar c = true)
    (hordered : insertions.Pairwise fun a b => b.offset < a.offset)
    (hcloses : ∀ insertion ∈ insertions, ClosesText text insertion.offset)
    (hmembers : ∀ insertion ∈ insertions, '\r' ∉ insertion.member.text.toList)
    (hends : UniformEnds text) :
    applyInsertions unit text insertions =
      .ok (changed (insertions.map (changeFor text unit)) text) := by
  induction insertions generalizing text with
  | nil => rw [applyInsertions, List.map_nil, changed_nil]
  | cons insertion rest ih =>
      obtain ⟨hfirst, hrest⟩ := List.pairwise_cons.1 hordered
      obtain ⟨before, after, rfl, hoffset⟩ := hcloses insertion (by simp)
      obtain ⟨huniform, hline⟩ := uniformEnds_insert before after insertion.member.text.toList unit
        hends (hmembers insertion (by simp)) hunit
      have hsame := fun other hother => changeFor_insert before after unit _ other
        (hcloses other (List.mem_cons_of_mem _ hother)) (hoffset ▸ hfirst other hother) hline
      have hstill := fun other hother => ClosesText.insert before after
        (addedText before insertion.member.text.toList unit (lineEnd (before ++ '\x7d' :: after)) ++
          (ownFront before ++ '\x7d' :: after)) other.offset
        (hcloses other (List.mem_cons_of_mem _ hother)) (hoffset ▸ hfirst other hother)
      have hinsert := insertChars_closing before after insertion.member.text.toList unit
      rw [hoffset] at hinsert
      have hrestText := ih _ hrest hstill
        (fun other hother => hmembers other (List.mem_cons_of_mem _ hother)) huniform
      rw [List.map_congr_left hsame] at hrestText
      simp only [applyInsertions, hinsert, hrestText, List.map_cons]
      rw [changed_changeFor_cons before after unit insertion _ hoffset]
      intro change hchange
      obtain ⟨other, hother, rfl⟩ := List.mem_map.1 hchange
      exact changeFor_end_lt before after unit other (hcloses other (by simp [hother]))
        (hoffset ▸ hfirst other hother)

/-- From the last closing brace to the first, also the changes come from the last to the first. -/
theorem pairwise_start_changeFor (unit text : List Char) (insertions : List Insertion)
    (hordered : insertions.Pairwise fun a b => b.offset < a.offset)
    (hcloses : ∀ insertion ∈ insertions, ClosesText text insertion.offset) :
    (insertions.map (changeFor text unit)).Pairwise fun a b => b.start < a.start := by
  rw [List.pairwise_map]
  refine hordered.imp_of_mem ?_
  intro a b ha hb hlt
  obtain ⟨before, after, rfl, hoffset⟩ := hcloses a ha
  have hend := changeFor_end_lt before after unit b (hcloses b hb) (hoffset ▸ hlt)
  rw [changeFor_append before _ unit a hoffset]
  exact Nat.lt_of_le_of_lt (Nat.le_add_right _ _) hend

/-- At most one of some changes with different places starts at an offset. -/
theorem filter_start_eq (changes : List Change)
    (h : changes.Pairwise fun a b => a.start ≠ b.start) (offset : Nat) :
    changes.filter (fun change => change.start == offset) = [] ∨
      ∃ change, changes.filter (fun change => change.start == offset) = [change] := by
  have hstart : ∀ change ∈ changes.filter (fun change => change.start == offset),
      change.start = offset := by
    intro change hchange
    simpa using (List.mem_filter.1 hchange).2
  have hpairwise := h.filter fun change => change.start == offset
  match hfilter : changes.filter (fun change => change.start == offset) with
  | [] => exact Or.inl hfilter
  | [change] => exact Or.inr ⟨change, hfilter⟩
  | change :: other :: rest =>
      rw [hfilter] at hstart hpairwise
      have hne := (List.pairwise_cons.1 hpairwise).1 other (by simp)
      rw [hstart change (by simp), hstart other (by simp)] at hne
      exact absurd rfl hne

/-- The order in which changes at different places are listed does not matter. -/
theorem changed_perm (changes changes' : List Change) (text : List Char)
    (hperm : changes.Perm changes') (h : changes.Pairwise fun a b => a.start ≠ b.start) :
    changed changes text = changed changes' text := by
  have hadded : ∀ offset, addedAt changes offset = addedAt changes' offset := by
    intro offset
    have hfilter := hperm.filter fun change => change.start == offset
    unfold addedAt
    rcases filter_start_eq changes h offset with hnil | ⟨change, hone⟩
    · rw [hnil] at hfilter ⊢
      rw [hfilter.symm.eq_nil]
    · rw [hone] at hfilter ⊢
      rw [List.perm_singleton.1 hfilter.symm]
  have hremoves : ∀ offset, (changes.any fun change => change.removes offset) =
      changes'.any fun change => change.removes offset :=
    fun offset => hperm.any_eq
  rw [changed, changed, hadded]
  congr 1
  exact changedPart_congr _ _ _ _ fun place _ _ => ⟨hadded place, hremoves place⟩

/-- The insertion that a class asks for: the member of its descriptor in front of its closing brace,
if it has no override, its body is closed and its descriptor is accepted. -/
def memberInsertion? (indent : String) (found : ClassOutline) : Option Insertion :=
  match found.hasToString, found.bodyClose,
      found.descriptor.generate { language := .csharp, indent } with
  | false, some offset, .ok member => some { offset, member, className := found.name }
  | _, _, _ => none

theorem memberInsertion?_eq_some (indent : String) (found : ClassOutline) (offset : Nat)
    (member : Member) (hlacks : found.hasToString = false) (hclose : found.bodyClose = some offset)
    (hmember : found.descriptor.generate { language := .csharp, indent } = .ok member) :
    memberInsertion? indent found = some { offset, member, className := found.name } := by
  rw [memberInsertion?, hlacks, hclose, hmember]

theorem memberInsertion?_eq (indent : String) (found : ClassOutline) :
    memberInsertion? indent found =
      if !found.hasToString then insertion? indent found else none := by
  unfold memberInsertion? insertion? planClass
  cases found.hasToString with
  | true => rfl
  | false =>
      cases found.bodyClose with
      | none => rfl
      | some offset =>
          cases found.descriptor.generate { language := .csharp, indent } with
          | error invalid => rfl
          | ok member => rfl

/-- The insertions that are planned for a text are those that its classes ask for. -/
theorem plannedInsertions_eq_members (indent text : String) :
    plannedInsertions { indent } text = (outline text).filterMap (memberInsertion? indent) := by
  rw [plannedInsertions, plan_insertions, if_neg (by simp), lackingToString, List.filterMap_filter]
  exact List.filterMap_congr fun found _ => (memberInsertion?_eq indent found).symm

/-- The changes that complete a text, one for each class that asks for a member, all read off the
text itself. -/
def completingChanges (indent text : String) : List Change :=
  ((outline text).filterMap (memberInsertion? indent)).map (changeFor text.toList indent.toList)

theorem not_mem_generate (descriptor : Descriptor) (indent : String) (member : Member)
    (hindent : ∀ c ∈ indent.toList, isIndentChar c = true)
    (h : descriptor.generate { language := .csharp, indent } = .ok member) :
    '\r' ∉ member.text.toList := by
  obtain ⟨hmember, hnames⟩ := generate_csharp_eq_ok descriptor indent member h
  intro hmem
  rw [hmember] at hmem
  rcases mem_joinWith _ _ _ hmem with hsep | ⟨line, hline, hin⟩
  · revert hsep
    decide
  · have hend := (csharpLines_single indent.toList _ hindent hnames line hline).2 _ hin
    revert hend
    decide

/-- The members that complete a text have no carriage returns. -/
theorem not_mem_of_mem_plannedInsertions (style : CompletionStyle) (text : String)
    (hindent : ∀ c ∈ style.indent.toList, isIndentChar c = true) (insertion : Insertion)
    (h : insertion ∈ plannedInsertions style text) : '\r' ∉ insertion.member.text.toList := by
  rw [plannedInsertions_eq] at h
  obtain ⟨found, -, hsome⟩ := List.mem_filterMap.1 h
  exact not_mem_generate _ _ _ hindent (insertion?_eq_some _ _ _ hsome).2.2

/-- A change takes away a run of spaces and tabs directly in front of a byte offset, or nothing. -/
def Change.TakesIndent (change : Change) (text : List Char) (offset : Nat) : Prop :=
  ∃ front run behind, text = front ++ (run ++ behind) ∧ byteLength front = change.start ∧
    byteLength run = change.removed ∧ (∀ c ∈ run, isIndentChar c = true) ∧
    (run = [] ∨ byteLength (front ++ run) = offset)

theorem changeFor_takesIndent (text unit : List Char) (insertion : Insertion)
    (h : ClosesText text insertion.offset) :
    (changeFor text unit insertion).TakesIndent text insertion.offset := by
  obtain ⟨before, after, rfl, hoffset⟩ := h
  rw [changeFor_append before _ unit insertion hoffset]
  refine ⟨keptFront before, takenAway before, ownFront before ++ '\x7d' :: after, ?_, rfl, rfl,
    isIndentChar_of_mem_takenAway before, ?_⟩
  · calc before ++ '\x7d' :: after
        = keptFront before ++ (takenAway before ++ ownFront before) ++ '\x7d' :: after := by
          rw [keptFront_append]
      _ = keptFront before ++ (takenAway before ++ (ownFront before ++ '\x7d' :: after)) := by simp
  · by_cases hline : onOwnLine before = true
    · exact Or.inl (by rw [takenAway, if_pos hline])
    · have hown : ownFront before = [] := by rw [ownFront, if_neg hline]
      have hbefore := keptFront_append before
      rw [hown, List.append_nil] at hbefore
      exact Or.inr (by rw [hbefore, hoffset])

/-- Completing a text makes the changes of all classes at once, each read off the original text: the
member of every class that has no override, is closed and has an accepted descriptor is added in
front of its closing brace, where inserting it into the original text would add it, what that would
take away is taken away, and everything else stays in order. -/
theorem complete_eq_changed (text indent : String)
    (hindent : ∀ c ∈ indent.toList, isIndentChar c = true)
    (hcloses : ((outline text).filter (isFixable indent)).Pairwise
      fun a b => a.bodyClose ≠ b.bodyClose)
    (hends : UniformEnds text.toList) :
    ∃ completion, complete text { indent } = .ok completion ∧
      completion.text.toList = changed (completingChanges indent text) text.toList ∧
      (remaining (completingChanges indent text) 0 text.toList).Sublist completion.text.toList ∧
      ∀ found ∈ outline text, found.hasToString = false →
        ∀ offset member, found.bodyClose = some offset →
          found.descriptor.generate { language := .csharp, indent } = .ok member →
          ∃ change ∈ completingChanges indent text,
            change = changeFor text.toList indent.toList
                { offset, member, className := found.name } ∧
              insertChars text.toList offset member.text.toList indent.toList =
                .ok (changed [change] text.toList) ∧
              change.TakesIndent text.toList offset := by
  have hplan := plannedInsertions_eq_members indent text
  have hplaces := closesText_of_mem_descending { indent } text
  have hordered := descending_pairwise _ ((nodup_plannedOffsets_iff { indent } text).2 hcloses)
  have hmembers : ∀ insertion ∈ descending (plannedInsertions { indent } text),
      '\r' ∉ insertion.member.text.toList :=
    fun insertion hinsertion => not_mem_of_mem_plannedInsertions { indent } text hindent insertion
      (mem_descending_iff.1 hinsertion)
  have hresult := applyInsertions_eq_changed indent.toList text.toList _ hindent hordered hplaces
    hmembers hends
  have hstarts := pairwise_start_changeFor indent.toList text.toList _ hordered hplaces
  have hchanges : ((descending (plannedInsertions { indent } text)).map
      (changeFor text.toList indent.toList)).Perm (completingChanges indent text) := by
    rw [completingChanges, ← hplan]
    exact (descending_perm _).map _
  rw [changed_perm _ _ text.toList hchanges (hstarts.imp fun hlt => hlt.ne')] at hresult
  refine ⟨_, complete_eq_ok text { indent } _ hresult, ?_, ?_, ?_⟩
  · exact String.toList_ofList
  · simp only [String.toList_ofList]
    exact (remaining_sublist_changedPart _ 0 _).trans (List.sublist_append_left _ _)
  · intro found hfound hlacks offset member hclose hmember
    have hmem : { offset, member, className := found.name } ∈
        (outline text).filterMap (memberInsertion? indent) :=
      List.mem_filterMap.2
        ⟨found, hfound, memberInsertion?_eq_some _ _ _ _ hlacks hclose hmember⟩
    have hplace := closesText_of_mem_plannedInsertions { indent } text _ (hplan.symm ▸ hmem)
    exact ⟨_, List.mem_map_of_mem hmem, rfl, insertChars_eq_changed _ _ _ hplace,
      changeFor_takesIndent _ _ _ hplace⟩

/-- Classes whose closing braces share lines, with tabs and spaces between them. -/
def sharedLines : String :=
  "class A \x7b\n\tclass B \x7b int X \x7b get; \x7d \t \x7d class C \x7b\x7d \x7d " ++
    "class D \x7b\n  \x7d\n"

theorem complete_sharedLines :
    (((outline sharedLines).filter (isFixable "\t")).Pairwise
        (fun a b => a.bodyClose ≠ b.bodyClose) ∧
      UniformEnds sharedLines.toList ∧
      (outline sharedLines).map ClassOutline.name = ["A", "B", "C", "D"] ∧
      (completingChanges "\t" sharedLines).map (fun change => (change.start, change.removed)) =
        [(50, 1), (35, 3), (49, 0), (63, 0)]) ∧
      ∃ completion, complete sharedLines { indent := "\t" } = .ok completion ∧
        completion.text.toList = changed (completingChanges "\t" sharedLines) sharedLines.toList ∧
        (remaining (completingChanges "\t" sharedLines) 0 sharedLines.toList).Sublist
          completion.text.toList ∧
        ∀ found ∈ outline sharedLines, found.hasToString = false →
          ∀ offset member, found.bodyClose = some offset →
            found.descriptor.generate { language := .csharp, indent := "\t" } = .ok member →
            ∃ change ∈ completingChanges "\t" sharedLines,
              change = changeFor sharedLines.toList "\t".toList
                  { offset, member, className := found.name } ∧
                insertChars sharedLines.toList offset member.text.toList "\t".toList =
                  .ok (changed [change] sharedLines.toList) ∧
                change.TakesIndent sharedLines.toList offset := by
  have hcloses : ((outline sharedLines).filter (isFixable "\t")).Pairwise
      (fun a b => a.bodyClose ≠ b.bodyClose) := by decide +kernel
  have hends : UniformEnds sharedLines.toList := by decide +kernel
  exact ⟨⟨hcloses, hends, by decide +kernel, by decide +kernel⟩,
    complete_eq_changed sharedLines "\t" (by decide) hcloses hends⟩

end RecordText.Edit
