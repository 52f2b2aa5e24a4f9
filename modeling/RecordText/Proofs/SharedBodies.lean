import RecordText.Proofs.CompletionPlan

/-!
# Classes that share a body

A header whose body is not written yet takes the next opening brace for its own.
If that brace belongs to another class, both classes are completed at the same
closing brace: the second member goes to an offset that the first one has made
stale. Completion gives every class a place of its own, and then never fails,
exactly if no two of the completed classes share their body.
-/

namespace RecordText.Edit

open RecordText.Text
open RecordText.Source

/-- All members can be inserted, each at a place of its own, exactly if no two completed classes
share their opening brace. -/
theorem complete_ok_and_offsets_nodup_iff (text : String) (style : CompletionStyle) :
    ((∃ completion, complete text style = .ok completion) ∧
        ((plannedInsertions style text).map Insertion.offset).Nodup) ↔
      (plannedClasses style text).Pairwise fun a b => a.bodyOpen ≠ b.bodyOpen := by
  rw [← pairwise_bodyClose_iff, ← nodup_plannedOffsets_iff]
  constructor
  · rintro ⟨-, hoffsets⟩
    exact hoffsets
  · intro hoffsets
    refine ⟨?_, hoffsets⟩
    obtain ⟨result, hresult⟩ := exists_applyInsertions style.indent.toList text.toList _
      (descending_pairwise _ hoffsets) (closesText_of_mem_descending style text)
    exact ⟨_, complete_eq_ok text style result hresult⟩

/-- A header without a body in front of a class: both are to be completed at the one closing
brace. -/
theorem offsets_of_header_without_body :
    (plannedInsertions {} "class A class B \x7b \x7d").map Insertion.offset = [18, 18] ∧
      ¬ ((plannedInsertions {} "class A class B \x7b \x7d").map Insertion.offset).Nodup := by
  decide +kernel

end RecordText.Edit
