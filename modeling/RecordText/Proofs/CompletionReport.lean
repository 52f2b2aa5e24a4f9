import RecordText.Proofs.CompletionPlan
import RecordText.Proofs.InsertedLines
import RecordText.Proofs.OutlinedNames

/-!
# The report of a completion

A completion reports on every class that lacks the override: the class is
completed if its body is closed and its descriptor is valid, and skipped with a
reason otherwise. Completed classes are listed in the order of their closing
braces, skipped ones in the order of the text. If only the first class is to be
completed, the report ends with it. The text changes exactly if some class is
completed.

## Main statements

* `isSome_insertion?_eq`: which classes an insertion is planned for.
* `forall₂_plan_skipped`: which classes are skipped, and for what reason.
* `className_descending`: the order of the completed classes.
* `signs_applyInsertions`: every insertion adds a sign to the text.
* `complete_accounts_for_classes`: the report as a whole.
-/

namespace RecordText.Edit

open RecordText.Text
open RecordText.Source

/-- Whether a class can be completed: its body is closed and its descriptor is valid. -/
def isCompletable (found : ClassOutline) : Bool :=
  found.bodyClose.isSome && (found.descriptor.validate .csharp).isOk

/-- What a report says about a skipped class: its name, and that its body is not closed or, if it
is, that its descriptor is rejected for a clash of names. -/
structure SkippedFor (indent : String) (found : ClassOutline) (entry : String × String) :
    Prop where
  name_eq : entry.1 = found.name
  unclosed_iff : entry.2 = "unterminated class body" ↔ found.bodyClose = none
  invalid : found.bodyClose ≠ none → ∃ invalid : InvalidDescriptor,
    found.descriptor.generate { language := .csharp, indent } = .error invalid ∧
      entry.2 = invalid.message ∧ invalid.fault.IsClash

/-- Whether the body of a class does not close behind that of another one. -/
def ClosesBy (first last : ClassOutline) : Prop :=
  ∀ close ∈ first.bodyClose, ∀ other ∈ last.bodyClose, close ≤ other

section Plan

variable (indent : String) (found : ClassOutline)

/-- An insertion is planned for the classes that can be completed. -/
theorem isSome_insertion?_eq : (insertion? indent found).isSome = isCompletable found := by
  unfold insertion? planClass isCompletable Descriptor.generate
  cases found.bodyClose with
  | none => rfl
  | some offset =>
      cases found.descriptor.validate .csharp with
      | error invalid => rfl
      | ok u => rfl

theorem isCompletable_of_planClass_ok (insertion : Insertion)
    (h : planClass indent found = .ok insertion) : isCompletable found = true := by
  rw [← isSome_insertion?_eq indent, insertion?, h]
  rfl

theorem isCompletable_of_planClass_error (reason : String)
    (h : planClass indent found = .error reason) : isCompletable found = false := by
  rw [← isSome_insertion?_eq indent, insertion?, h]
  rfl

theorem message_ne_unclosedReason (invalid : InvalidDescriptor) :
    invalid.message ≠ "unterminated class body" := by
  have hmessage : invalid.message = "invalid type descriptor `" ++
      (invalid.typeName ++ ("`: " ++ invalid.fault.message)) := by
    delta InvalidDescriptor.message
    simp only [String.append_assoc]
  have hhead : "invalid type descriptor `".toList.head? = some 'i' := by decide
  intro h
  have hheads := congrArg (fun text => text.toList.head?) (hmessage.symm.trans h)
  simp only [String.toList_append, List.head?_append, hhead, Option.some_or] at hheads
  exact absurd hheads (by decide)

theorem validate_of_generate_error (descriptor : Descriptor) (style : Style)
    (invalid : InvalidDescriptor) (h : descriptor.generate style = .error invalid) :
    descriptor.validate style.language = .error invalid := by
  unfold Descriptor.generate at h
  split at h
  · rename_i found hfound
    rw [hfound, Except.error.inj h]
  · cases h

/-- The reason to skip a class whose names have the right form. -/
theorem skippedFor_of_planClass (reason : String) (hformed : found.NamesFormed)
    (h : planClass indent found = .error reason) :
    SkippedFor indent found (found.name, reason) := by
  unfold planClass at h
  split at h
  · rename_i hclose
    obtain rfl := Except.error.inj h
    exact ⟨rfl, by simp [unclosedReason, hclose], by simp [hclose]⟩
  · rename_i offset hclose
    split at h
    · rename_i invalid hgenerate
      obtain rfl := Except.error.inj h
      have hvalidate := validate_of_generate_error _ _ invalid hgenerate
      have hfault := ((validate_eq_error_iff _ _ invalid).1 hvalidate).2
      refine ⟨rfl, ?_, fun _ => ⟨invalid, hgenerate, rfl, ?_⟩⟩
      · simp [message_ne_unclosedReason, hclose]
      · exact hfault.isClash hformed.name_form hformed.field_form
    · cases h

end Plan

/-- The classes that are skipped: those that cannot be completed, up to the first one that can be
if only this one is completed. -/
theorem forall₂_plan_skipped (style : CompletionStyle) (classes : List ClassOutline)
    (hformed : ∀ found ∈ classes, found.NamesFormed) :
    List.Forall₂ (SkippedFor style.indent)
      (if style.firstOnly then classes.takeWhile (!isCompletable ·)
        else classes.filter (!isCompletable ·))
      (plan style classes).skipped := by
  induction classes with
  | nil => simp [plan]
  | cons found rest ih =>
      obtain ⟨hfound, hrest⟩ := List.forall_mem_cons.1 hformed
      have hskipped := ih hrest
      rw [plan]
      cases hplan : planClass style.indent found with
      | ok insertion =>
          have hcompletable := isCompletable_of_planClass_ok _ found insertion hplan
          by_cases hfirst : style.firstOnly = true
          · simp [hfirst, hcompletable]
          · simpa [hfirst, hcompletable] using hskipped
      | error reason =>
          have hcompletable := isCompletable_of_planClass_error _ found reason hplan
          have hentry := skippedFor_of_planClass _ found reason hfound hplan
          by_cases hfirst : style.firstOnly = true
          · simpa [hfirst, hcompletable, hentry] using hskipped
          · simpa [hfirst, hcompletable, hentry] using hskipped

section Order

/-- Whether the body of a class closes no earlier than that of another one. -/
def closesLast (first last : ClassOutline) : Bool :=
  last.bodyClose.getD 0 ≤ first.bodyClose.getD 0

theorem pairwise_closesBy (classes : List ClassOutline) :
    (classes.mergeSort closesLast).reverse.Pairwise ClosesBy := by
  have hsorted : (classes.mergeSort closesLast).Pairwise fun a b => closesLast a b = true := by
    apply List.pairwise_mergeSort
    · intro a b c hab hbc
      simp only [closesLast, decide_eq_true_eq] at hab hbc ⊢
      omega
    · intro a b
      simp only [closesLast, Bool.or_eq_true, decide_eq_true_eq]
      omega
  rw [List.pairwise_reverse]
  refine hsorted.imp ?_
  intro last first hle close hclose other hother
  simpa [closesLast, Option.mem_def.1 hclose, Option.mem_def.1 hother] using hle

/-- What is known of an insertion is known of the class that it completes. -/
theorem map_insertion? (indent : String) (classes : List ClassOutline)
    (h : ∀ found ∈ classes, isCompletable found = true) :
    ((classes.filterMap (insertion? indent)).map fun insertion =>
        (insertion.offset, insertion.className)) =
      classes.map fun found => (found.bodyClose.getD 0, found.name) := by
  induction classes with
  | nil => rfl
  | cons found rest ih =>
      obtain ⟨hfound, hrest⟩ := List.forall_mem_cons.1 h
      rw [← isSome_insertion?_eq indent] at hfound
      obtain ⟨insertion, hinsertion⟩ := Option.isSome_iff_exists.1 hfound
      obtain ⟨hclose, hname, -⟩ := insertion?_eq_some _ _ _ hinsertion
      rw [List.filterMap_cons_some hinsertion, List.map_cons, List.map_cons, ih hrest, hclose,
        hname]
      rfl

/-- The insertions, from the last to the first, complete the classes in the order of their closing
braces, from the last to the first. -/
theorem className_descending (indent : String) (classes : List ClassOutline)
    (h : ∀ found ∈ classes, isCompletable found = true) :
    (descending (classes.filterMap (insertion? indent))).map Insertion.className =
      (classes.mergeSort closesLast).map ClassOutline.name := by
  have hmap := map_insertion? indent classes h
  calc (descending (classes.filterMap (insertion? indent))).map Insertion.className
      = ((descending (classes.filterMap (insertion? indent))).map fun insertion =>
          (insertion.offset, insertion.className)).map Prod.snd := by
        rw [List.map_map]
        rfl
    _ = ((classes.map fun found => (found.bodyClose.getD 0, found.name)).mergeSort
          fun a b => b.1 ≤ a.1).map Prod.snd := by
        rw [← hmap, descending, List.map_mergeSort]
        simp
    _ = (classes.mergeSort closesLast).map ClassOutline.name := by
        rw [← List.map_mergeSort (r := closesLast) (by simp [closesLast]), List.map_map]
        rfl

end Order

section Signs

/-- An insertion keeps all signs of the text and brings in some, if the member has any. -/
theorem exists_signs_insertBetween (text before after member unit : List Char)
    (h : member.filter isSign ≠ []) :
    ∃ added, added ≠ [] ∧ (insertBetween before after member unit (lineEnd text)).filter isSign =
      before.filter isSign ++ (added ++ after.filter isSign) := by
  have hlead := filter_isSign_of_blank _ (isBlank_of_mem_insertedLead before after)
  refine ⟨((insertedLines before after member unit).flatMap (· ++ lineEnd text)).filter isSign,
    ?_, ?_⟩
  · obtain ⟨c, hc⟩ := List.exists_mem_of_ne_nil _ h
    rw [← flatMap_filter_lines] at hc
    obtain ⟨line, hline, hsign⟩ := List.mem_flatMap.1 hc
    obtain ⟨hmem, hsign⟩ := List.mem_filter.1 hsign
    apply List.ne_nil_of_mem (a := c)
    rw [List.mem_filter, List.mem_flatMap]
    refine ⟨⟨_, List.mem_map_of_mem hline, ?_⟩, hsign⟩
    have hne : ¬ line.isEmpty = true := by
      rw [List.isEmpty_iff]
      exact List.ne_nil_of_mem hmem
    rw [if_neg hne]
    simp [hmem]
  · rw [insertBetween_eq, List.filter_append, List.filter_append, List.filter_append, hlead,
      filter_isSign_insertedFront, List.nil_append]

theorem signs_insertChars (text member unit result : List Char) (offset : Nat)
    (hmember : member.filter isSign ≠ [])
    (h : insertChars text offset member unit = .ok result) :
    text.countP isSign < result.countP isSign := by
  unfold insertChars at h
  split at h
  · cases h
  · split at h
    · cases h
    · rename_i before after hcut
      obtain rfl := Except.ok.inj h
      obtain ⟨htext, -⟩ := eq_append_of_cutAt? _ _ before after hcut
      obtain ⟨added, hadded, hsigns⟩ :=
        exists_signs_insertBetween text before after member unit hmember
      have hpos := List.length_pos_iff.2 hadded
      rw [List.countP_eq_length_filter, List.countP_eq_length_filter, hsigns, htext]
      simp only [List.filter_append, List.length_append]
      omega

/-- Every insertion adds a sign to the text. -/
theorem signs_applyInsertions (unit text result : List Char) (insertions : List Insertion)
    (hmembers : ∀ insertion ∈ insertions, insertion.member.text.toList.filter isSign ≠ [])
    (h : applyInsertions unit text insertions = .ok result) :
    text.countP isSign + insertions.length ≤ result.countP isSign := by
  induction insertions generalizing text with
  | nil =>
      obtain rfl := Except.ok.inj h
      simp
  | cons insertion rest ih =>
      obtain ⟨hfirst, hrest⟩ := List.forall_mem_cons.1 hmembers
      rw [applyInsertions] at h
      cases hinsert : insertChars text insertion.offset insertion.member.text.toList unit with
      | error error =>
          rw [hinsert] at h
          cases h
      | ok next =>
          rw [hinsert] at h
          have hstep := signs_insertChars text _ unit next _ hfirst hinsert
          have hrun := ih next hrest h
          rw [List.length_cons]
          omega

/-- The member of a descriptor has signs. -/
theorem signs_of_generate (descriptor : Descriptor) (indent : String) (member : Member)
    (h : descriptor.generate { language := .csharp, indent } = .ok member) :
    member.text.toList.filter isSign ≠ [] := by
  obtain ⟨htext, -⟩ := generate_csharp_eq_ok descriptor indent member h
  have hsignature : 'p' ∈ "public override string ToString()".toList := by decide
  rw [htext, csharpLines, joinWith_cons]
  apply List.ne_nil_of_mem (a := 'p')
  exact List.mem_filter.2 ⟨List.mem_append_left _ hsignature, by decide⟩

end Signs

/-- A completed text and its report come from the planned insertions. -/
theorem exists_of_complete (text : String) (style : CompletionStyle) (completion : Completion)
    (h : complete text style = .ok completion) :
    ∃ result, applyInsertions style.indent.toList text.toList
        (descending (plannedInsertions style text)) = .ok result ∧
      completion = { text := String.ofList result
                     completed := ((descending (plannedInsertions style text)).map
                       Insertion.className).reverse
                     skipped := (plan style (lackingToString text)).skipped } := by
  unfold complete at h
  dsimp only at h
  split at h
  · cases h
  · rename_i result hresult
    exact ⟨result, hresult, (Except.ok.inj h).symm⟩

/-- The classes that are completed are those that lack the override and can be completed. -/
theorem filter_isFixable_eq (indent text : String) :
    (outline text).filter (isFixable indent) = (lackingToString text).filter isCompletable := by
  rw [lackingToString, List.filter_filter]
  apply List.filter_congr
  intro found _
  rw [isFixable, isSome_insertion?_eq, Bool.and_comm]

section Report

variable {text : String} {style : CompletionStyle} {completion : Completion}

/-- The text changes exactly if some class is completed. -/
theorem text_eq_iff_of_complete (h : complete text style = .ok completion) :
    completion.text = text ↔ completion.completed = [] := by
  obtain ⟨result, hresult, rfl⟩ := exists_of_complete text style completion h
  have hmembers : ∀ insertion ∈ descending (plannedInsertions style text),
      insertion.member.text.toList.filter isSign ≠ [] := by
    intro insertion hinsertion
    obtain ⟨found, -, hsome⟩ := mem_descending_plannedInsertions_iff.1 hinsertion
    obtain ⟨-, -, hgenerate⟩ := insertion?_eq_some _ _ _ hsome
    exact signs_of_generate _ _ _ hgenerate
  have hsigns := signs_applyInsertions _ _ _ _ hmembers hresult
  constructor
  · intro htext
    have hlist : result = text.toList := by rw [← htext, String.toList_ofList]
    rw [hlist] at hsigns
    have hnone : descending (plannedInsertions style text) = [] :=
      List.length_eq_zero_iff.1 (by omega)
    simp [hnone]
  · intro hnone
    have hempty : descending (plannedInsertions style text) = [] := by simpa using hnone
    rw [hempty] at hresult
    obtain rfl := Except.ok.inj hresult
    exact String.ofList_toList

theorem isCompletable_of_mem_plannedClasses (found : ClassOutline)
    (h : found ∈ plannedClasses style text) : isCompletable found = true := by
  obtain ⟨-, hfixable⟩ := mem_outline_of_mem_plannedClasses style text found h
  obtain ⟨insertion, hinsertion⟩ := exists_insertion?_of_isFixable _ found hfixable
  rw [← isSome_insertion?_eq style.indent, hinsertion]
  rfl

/-- The completed classes are listed in the order of their closing braces. -/
theorem completed_eq_of_complete (h : complete text style = .ok completion) :
    completion.completed =
      ((plannedClasses style text).mergeSort closesLast).reverse.map ClassOutline.name := by
  obtain ⟨result, -, rfl⟩ := exists_of_complete text style completion h
  rw [plannedInsertions_eq,
    className_descending _ _ isCompletable_of_mem_plannedClasses, List.map_reverse]

theorem skipped_of_complete (h : complete text style = .ok completion) :
    List.Forall₂ (SkippedFor style.indent)
      (if style.firstOnly then (lackingToString text).takeWhile (!isCompletable ·)
        else (lackingToString text).filter (!isCompletable ·))
      completion.skipped := by
  obtain ⟨result, -, rfl⟩ := exists_of_complete text style completion h
  apply forall₂_plan_skipped
  intro found hfound
  exact namesFormed_of_mem_outline text found (List.mem_filter.1 hfound).1

theorem map_fst_of_skippedFor (indent : String) (classes : List ClassOutline)
    (skipped : List (String × String)) (h : List.Forall₂ (SkippedFor indent) classes skipped) :
    skipped.map Prod.fst = classes.map ClassOutline.name := by
  induction h with
  | nil => rfl
  | cons hentry _ ih => rw [List.map_cons, List.map_cons, hentry.name_eq, ih]

end Report

/-- A report accounts for every class that lacks the override. All of them are completed that can
be, in the order of their closing braces, and the others are skipped in the order of the text; or
only the first one is completed that can be, and those before it are skipped. The text changes
exactly if some class is completed. -/
theorem complete_accounts_for_classes (text : String) (style : CompletionStyle)
    (completion : Completion) (h : complete text style = .ok completion) :
    (completion.text = text ↔ completion.completed = []) ∧
    (style.firstOnly = false →
      (completion.completed ++ completion.skipped.map Prod.fst).Perm
        ((lackingToString text).map ClassOutline.name) ∧
      (∃ done : List ClassOutline, done.Perm ((lackingToString text).filter isCompletable) ∧
        done.Pairwise ClosesBy ∧ completion.completed = done.map ClassOutline.name) ∧
      List.Forall₂ (SkippedFor style.indent) ((lackingToString text).filter (!isCompletable ·))
        completion.skipped) ∧
    (style.firstOnly = true →
      completion.completed =
        ((lackingToString text).find? isCompletable).toList.map ClassOutline.name ∧
      List.Forall₂ (SkippedFor style.indent)
        ((lackingToString text).takeWhile (!isCompletable ·)) completion.skipped) := by
  have hcompleted := completed_eq_of_complete h
  have hskipped := skipped_of_complete h
  refine ⟨text_eq_iff_of_complete h, ?_, ?_⟩
  · intro hfirst
    simp only [hfirst, Bool.false_eq_true, if_false, plannedClasses, filter_isFixable_eq]
      at hcompleted hskipped
    have hdone : (((lackingToString text).filter isCompletable).mergeSort closesLast).reverse.Perm
        ((lackingToString text).filter isCompletable) :=
      (List.reverse_perm _).trans (List.mergeSort_perm _ _)
    refine ⟨?_, ⟨_, hdone, pairwise_closesBy _, hcompleted⟩, hskipped⟩
    rw [hcompleted, map_fst_of_skippedFor _ _ _ hskipped, ← List.map_append]
    apply List.Perm.map
    exact (hdone.append_right _).trans (List.filter_append_perm isCompletable _)
  · intro hfirst
    simp only [hfirst, if_true, plannedClasses, filter_isFixable_eq, List.take_one,
      List.head?_filter] at hcompleted hskipped
    refine ⟨?_, hskipped⟩
    rw [hcompleted]
    cases (lackingToString text).find? isCompletable with
    | none => simp
    | some found => simp

/-- Four classes that lack the override: one is not closed, the name of one is a reserved word, and
of the other two one is closed inside the other. -/
def reportedClasses : String :=
  "class A \x7b class int \x7b \x7d class B \x7b \x7d \x7d class C \x7b"

theorem complete_reportedClasses :
    ∃ completion, complete reportedClasses { indent := "\t" } = .ok completion ∧
      completion.text ≠ reportedClasses ∧ completion.completed.Perm ["A", "B"] ∧
      (completion.completed ++ completion.skipped.map Prod.fst).Perm ["A", "int", "B", "C"] ∧
      List.Forall₂ (SkippedFor "\t") ((lackingToString reportedClasses).filter (!isCompletable ·))
        completion.skipped := by
  have hnodup : ((plannedInsertions { indent := "\t" } reportedClasses).map
      Insertion.offset).Nodup := by
    decide +kernel
  obtain ⟨result, hresult⟩ := exists_applyInsertions "\t".toList reportedClasses.toList _
    (descending_pairwise _ hnodup)
    (closesText_of_mem_descending { indent := "\t" } reportedClasses)
  have hcomplete := complete_eq_ok reportedClasses { indent := "\t" } result hresult
  have hclasses : (lackingToString reportedClasses).map ClassOutline.name =
      ["A", "int", "B", "C"] := by
    decide +kernel
  have hcompletable : ((lackingToString reportedClasses).filter isCompletable).map
      ClassOutline.name = ["A", "B"] := by
    decide +kernel
  obtain ⟨htext, hall, -⟩ := complete_accounts_for_classes _ _ _ hcomplete
  obtain ⟨hperm, ⟨done, hdone, -, hcompleted⟩, hskipped⟩ := hall rfl
  have hnames := hdone.map ClassOutline.name
  rw [← hcompleted, hcompletable] at hnames
  refine ⟨_, hcomplete, ?_, hnames, hclasses ▸ hperm, hskipped⟩
  rw [Ne, htext]
  intro hnone
  rw [hnone] at hnames
  exact absurd hnames.length_eq (by decide)

end RecordText.Edit
