import RecordText.Edit.Completion
import RecordText.Proofs.ClassBodies
import RecordText.Proofs.InsertionPlace
import RecordText.Proofs.Masking

/-!
# Planned insertions

The plan for a text has one insertion for each class that lacks an override, is
closed and gives a valid descriptor. An insertion stands at the closing brace of
its class, so every insertion is at a closing brace of the text itself. Carried
out from the last offset to the first, insertions at different offsets all
succeed: none of them touches what stands up to an earlier closing brace.
-/

namespace RecordText.Edit

open RecordText.Text
open RecordText.Source

/-- The insertion that completes a class, if there is one. -/
def insertion? (indent : String) (found : ClassOutline) : Option Insertion :=
  (planClass indent found).toOption

/-- Whether a class can be completed: it lacks the override, and an insertion completes it. -/
def isFixable (indent : String) (found : ClassOutline) : Bool :=
  !found.hasToString && (insertion? indent found).isSome

/-- The classes of a text that are completed. -/
def plannedClasses (style : CompletionStyle) (text : String) : List ClassOutline :=
  let fixable := (outline text).filter (isFixable style.indent)
  if style.firstOnly then fixable.take 1 else fixable

/-- The insertions that are planned for a text. -/
def plannedInsertions (style : CompletionStyle) (text : String) : List Insertion :=
  (plan style (lackingToString text)).insertions

theorem insertion?_eq_some (indent : String) (found : ClassOutline) (insertion : Insertion)
    (h : insertion? indent found = some insertion) :
    found.bodyClose = some insertion.offset ∧ insertion.className = found.name ∧
      found.descriptor.generate { language := .csharp, indent } = .ok insertion.member := by
  unfold insertion? planClass at h
  split at h
  · cases h
  · split at h
    · cases h
    · cases h
      exact ⟨by assumption, rfl, by assumption⟩

theorem plan_insertions (style : CompletionStyle) (classes : List ClassOutline) :
    (plan style classes).insertions =
      if style.firstOnly then (classes.filterMap (insertion? style.indent)).take 1
      else classes.filterMap (insertion? style.indent) := by
  induction classes with
  | nil => simp [plan]
  | cons found rest ih =>
      rw [plan]
      cases hplan : planClass style.indent found with
      | error reason =>
          have hnone : insertion? style.indent found = none := by rw [insertion?, hplan]; rfl
          rw [List.filterMap_cons_none hnone]
          exact ih
      | ok insertion =>
          have hsome : insertion? style.indent found = some insertion := by
            rw [insertion?, hplan]
            rfl
          rw [List.filterMap_cons_some hsome]
          by_cases hfirst : style.firstOnly = true
          · simp [hfirst]
          · simp only [hfirst] at ih ⊢
            simp [ih]

theorem filterMap_filter_isFixable (indent : String) (classes : List ClassOutline) :
    (classes.filter (isFixable indent)).filterMap (insertion? indent) =
      (classes.filter fun found => !found.hasToString).filterMap (insertion? indent) := by
  rw [List.filterMap_filter, List.filterMap_filter]
  apply List.filterMap_congr
  intro found _
  cases hfound : insertion? indent found with
  | none => simp
  | some insertion => simp [isFixable, hfound]

theorem exists_insertion?_of_isFixable (indent : String) (found : ClassOutline)
    (h : isFixable indent found = true) :
    ∃ insertion, insertion? indent found = some insertion := by
  simp only [isFixable, Bool.and_eq_true] at h
  exact Option.isSome_iff_exists.1 h.2

/-- Each completed class has one insertion. -/
theorem plannedInsertions_eq (style : CompletionStyle) (text : String) :
    plannedInsertions style text =
      (plannedClasses style text).filterMap (insertion? style.indent) := by
  rw [plannedInsertions, plan_insertions, lackingToString, ← filterMap_filter_isFixable,
    plannedClasses]
  by_cases hfirst : style.firstOnly = true
  · simp only [hfirst, if_true]
    have hfixable : ∀ found ∈ (outline text).filter (isFixable style.indent),
        ∃ insertion, insertion? style.indent found = some insertion := by
      intro found hfound
      exact exists_insertion?_of_isFixable _ _ (List.mem_filter.1 hfound).2
    cases hclasses : (outline text).filter (isFixable style.indent) with
    | nil => rfl
    | cons found rest =>
        obtain ⟨insertion, hinsertion⟩ := hfixable found (by simp [hclasses])
        simp [hinsertion]
  · simp only [hfirst]
    rfl

theorem mem_outline_of_mem_plannedClasses (style : CompletionStyle) (text : String)
    (found : ClassOutline) (h : found ∈ plannedClasses style text) :
    found ∈ outline text ∧ isFixable style.indent found = true := by
  unfold plannedClasses at h
  split at h
  · exact List.mem_filter.1 (List.mem_of_mem_take h)
  · exact List.mem_filter.1 h

/-- A class that is to be completed has both braces. -/
theorem exists_hasBody_of_isFixable (indent : String) (text : String) (found : ClassOutline)
    (hfound : found ∈ outline text) (h : isFixable indent found = true) :
    ∃ front inside behind, HasBody (mask text.toList) front inside behind found := by
  obtain ⟨insertion, hinsertion⟩ := exists_insertion?_of_isFixable indent found h
  obtain ⟨hclose, -, -⟩ := insertion?_eq_some _ _ _ hinsertion
  exact exists_hasBody (mask text.toList) found _ hfound hclose

/-- A closing brace stands at this byte offset. -/
def ClosesText (text : List Char) (offset : Nat) : Prop :=
  ∃ before after, text = before ++ '\x7d' :: after ∧ byteLength before = offset

/-- Every planned insertion is at a closing brace of the text. -/
theorem closesText_of_mem_plannedInsertions (style : CompletionStyle) (text : String)
    (insertion : Insertion) (h : insertion ∈ plannedInsertions style text) :
    ClosesText text.toList insertion.offset := by
  rw [plannedInsertions_eq] at h
  obtain ⟨found, hfound, hinsertion⟩ := List.mem_filterMap.1 h
  obtain ⟨hclose, -, -⟩ := insertion?_eq_some _ _ _ hinsertion
  obtain ⟨houtline, -⟩ := mem_outline_of_mem_plannedClasses style text found hfound
  obtain ⟨front, inside, behind, hbody⟩ :=
    exists_hasBody (mask text.toList) found insertion.offset houtline hclose
  obtain ⟨before, after, tokens, hcloses, htokens, -⟩ := exists_closesAt text.toList
    (front ++ '\x7b' :: inside) behind (by simpa using hbody.masked_eq)
  refine ⟨before, after, hcloses.text_eq, ?_⟩
  have hoffset := Option.some.inj (hclose.symm.trans hbody.close_eq)
  rw [hoffset, ← htokens, byteLength_flatMap_masked, hcloses.front_text]

/-- Two insertions are at one place exactly if their classes share the closing brace. -/
theorem nodup_plannedOffsets_iff (style : CompletionStyle) (text : String) :
    ((plannedInsertions style text).map Insertion.offset).Nodup ↔
      (plannedClasses style text).Pairwise fun a b => a.bodyClose ≠ b.bodyClose := by
  rw [plannedInsertions_eq, List.Nodup, List.pairwise_map, List.pairwise_filterMap]
  constructor
  · intro h
    refine h.imp_of_mem ?_
    intro a b ha hb hoffset heq
    obtain ⟨-, hfixable⟩ := mem_outline_of_mem_plannedClasses style text a ha
    obtain ⟨-, hfixable'⟩ := mem_outline_of_mem_plannedClasses style text b hb
    obtain ⟨insertion, hinsertion⟩ := exists_insertion?_of_isFixable _ a hfixable
    obtain ⟨insertion', hinsertion'⟩ := exists_insertion?_of_isFixable _ b hfixable'
    apply hoffset insertion hinsertion insertion' hinsertion'
    have hclose := (insertion?_eq_some _ _ _ hinsertion).1
    have hclose' := (insertion?_eq_some _ _ _ hinsertion').1
    exact Option.some.inj (hclose.symm.trans (heq.trans hclose'))
  · intro h
    refine h.imp ?_
    intro a b hclose insertion hinsertion insertion' hinsertion' hoffset
    apply hclose
    rw [(insertion?_eq_some _ _ _ hinsertion).1, (insertion?_eq_some _ _ _ hinsertion').1, hoffset]

/-- Classes that are to be completed share the closing brace exactly if they share the body. -/
theorem pairwise_bodyClose_iff (style : CompletionStyle) (text : String) :
    (plannedClasses style text).Pairwise (fun a b => a.bodyClose ≠ b.bodyClose) ↔
      (plannedClasses style text).Pairwise fun a b => a.bodyOpen ≠ b.bodyOpen := by
  have hsame : ∀ a ∈ plannedClasses style text, ∀ b ∈ plannedClasses style text,
      (a.bodyClose = b.bodyClose ↔ a.bodyOpen = b.bodyOpen) := by
    intro a ha b hb
    obtain ⟨hmem, hfixable⟩ := mem_outline_of_mem_plannedClasses style text a ha
    obtain ⟨hmem', hfixable'⟩ := mem_outline_of_mem_plannedClasses style text b hb
    obtain ⟨_, _, _, hbody⟩ := exists_hasBody_of_isFixable _ text a hmem hfixable
    obtain ⟨_, _, _, hbody'⟩ := exists_hasBody_of_isFixable _ text b hmem' hfixable'
    constructor
    · intro hclose
      exact bodyOpen_eq_of_bodyClose_eq (mask text.toList) a b _ hmem hmem' hbody.close_eq
        (hclose.symm.trans hbody.close_eq)
    · intro hopen
      rw [hbody.close_eq, hbody'.close_eq, bodyClose_eq_of_bodyOpen_eq (mask text.toList) a b _ _
        hmem hmem' hbody.close_eq hbody'.close_eq hopen]
  constructor
  · intro h
    exact h.imp_of_mem fun ha hb hne heq => hne ((hsame _ ha _ hb).2 heq)
  · intro h
    exact h.imp_of_mem fun ha hb hne heq => hne ((hsame _ ha _ hb).1 heq)

/-- Ordering insertions neither adds nor drops any. -/
theorem descending_perm (insertions : List Insertion) : (descending insertions).Perm insertions :=
  List.mergeSort_perm _ _

theorem mem_descending_iff {insertions : List Insertion} {insertion : Insertion} :
    insertion ∈ descending insertions ↔ insertion ∈ insertions :=
  (descending_perm insertions).mem_iff

/-- The ordered insertions are still those of the planned classes. -/
theorem mem_descending_plannedInsertions_iff {style : CompletionStyle} {text : String}
    {insertion : Insertion} : insertion ∈ descending (plannedInsertions style text) ↔
      ∃ found ∈ plannedClasses style text, insertion? style.indent found = some insertion := by
  rw [mem_descending_iff, plannedInsertions_eq, List.mem_filterMap]

theorem closesText_of_mem_descending (style : CompletionStyle) (text : String)
    (insertion : Insertion) (h : insertion ∈ descending (plannedInsertions style text)) :
    ClosesText text.toList insertion.offset :=
  closesText_of_mem_plannedInsertions style text insertion (mem_descending_iff.1 h)

/-- The insertions are carried out from the last offset to the first. -/
theorem descending_pairwise (insertions : List Insertion)
    (h : (insertions.map Insertion.offset).Nodup) :
    (descending insertions).Pairwise fun a b => b.offset < a.offset := by
  have hsorted : (descending insertions).Pairwise
      fun a b => decide (b.offset ≤ a.offset) = true := by
    apply List.pairwise_mergeSort
    · intro a b c hab hbc
      simp only [decide_eq_true_eq] at hab hbc ⊢
      omega
    · intro a b
      simp only [Bool.or_eq_true, decide_eq_true_eq]
      omega
  have hnodup : ((descending insertions).map Insertion.offset).Nodup :=
    ((descending_perm insertions).map Insertion.offset).nodup_iff.2 h
  have hne : (descending insertions).Pairwise fun a b => a.offset ≠ b.offset :=
    List.pairwise_map.1 hnodup
  refine (hsorted.and hne).imp ?_
  rintro a b ⟨hle, hneq⟩
  have := of_decide_eq_true hle
  omega

/-- A closing brace before a place belongs to the text before the place. -/
theorem exists_append_of_byteLength_lt (before after front behind : List Char)
    (h : before ++ after = front ++ '\x7d' :: behind)
    (hlt : byteLength front < byteLength before) :
    ∃ more, before = front ++ '\x7d' :: more := by
  rcases List.append_eq_append_iff.1 h with ⟨between, hfront, -⟩ | ⟨between, hbefore, hrest⟩
  · rw [hfront, byteLength_append] at hlt
    omega
  · cases between with
    | nil =>
        rw [hbefore, List.append_nil] at hlt
        exact absurd hlt (Nat.lt_irrefl _)
    | cons c more =>
        obtain ⟨rfl, -⟩ := List.cons.inj hrest
        exact ⟨more, hbefore⟩

/-- The closing braces before an insertion stay in their places. -/
theorem ClosesText.insert (before after added : List Char) (place : Nat)
    (h : ClosesText (before ++ '\x7d' :: after) place) (hlt : place < byteLength before) :
    ClosesText (keptFront before ++ added) place := by
  obtain ⟨front, behind, htext, rfl⟩ := h
  obtain ⟨more, hbefore⟩ := exists_append_of_byteLength_lt before _ front behind htext hlt
  obtain ⟨kept, hkept, -⟩ := exists_keptFront_eq before front more hbefore
  exact ⟨front, kept ++ added, by rw [hkept, List.append_assoc, List.cons_append], rfl⟩

/-- Insertions at closing braces, from the last to the first, succeed. -/
theorem exists_applyInsertions (unit text : List Char) (insertions : List Insertion)
    (hordered : insertions.Pairwise fun a b => b.offset < a.offset)
    (hcloses : ∀ insertion ∈ insertions, ClosesText text insertion.offset) :
    ∃ result, applyInsertions unit text insertions = .ok result := by
  induction insertions generalizing text with
  | nil => exact ⟨text, rfl⟩
  | cons insertion rest ih =>
      obtain ⟨hfirst, hrest⟩ := List.pairwise_cons.1 hordered
      obtain ⟨before, after, rfl, hoffset⟩ := hcloses insertion (by simp)
      have hinsert := insertChars_closing before after insertion.member.text.toList unit
      rw [hoffset] at hinsert
      have hstill := fun other hother => ClosesText.insert before after
        (addedText before insertion.member.text.toList unit (lineEnd (before ++ '\x7d' :: after)) ++
          (ownFront before ++ '\x7d' :: after)) other.offset
        (hcloses other (List.mem_cons_of_mem _ hother)) (hoffset ▸ hfirst other hother)
      obtain ⟨final, hfinal⟩ := ih _ hrest hstill
      exact ⟨final, by rw [applyInsertions, hinsert]; exact hfinal⟩

/-- Once the planned insertions are carried out, the text is completed. -/
theorem complete_eq_ok (text : String) (style : CompletionStyle) (result : List Char)
    (h : applyInsertions style.indent.toList text.toList
      (descending (plannedInsertions style text)) = .ok result) :
    complete text style =
      .ok { text := String.ofList result
            completed := ((descending (plannedInsertions style text)).map
              Insertion.className).reverse
            skipped := (plan style (lackingToString text)).skipped } := by
  rw [plannedInsertions] at h
  simp only [complete, h]
  rfl

end RecordText.Edit
