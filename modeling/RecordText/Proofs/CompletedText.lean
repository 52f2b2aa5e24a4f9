import RecordText.Proofs.CompletionPlan
import RecordText.Proofs.InsertedOverride
import Mathlib.Data.List.Forall2

/-!
# Outlines of completed texts

A text is completed by insertions, from the last closing brace to the first.
One insertion keeps all classes and their properties and adds one override, and
it leaves the places of the insertions to come as they are. By induction the
same holds of all insertions together: the outline of the completed text shows
the classes of the old one, and exactly the completed ones have a further
override. Completing the result once more therefore changes nothing.

## Implementation notes

The argument needs that only blanks stand between the last member of a body and
its closing brace. An insertion behind an unfinished member would be read as
part of that member.
-/

namespace RecordText.Edit

open RecordText.Text
open RecordText.Source

/-- Only blanks stand between the last stop and the closing brace at an offset. -/
def IsSeat (masked : List Char) (offset : Nat) : Prop :=
  ∃ front stop blanks behind, masked = front ++ stop :: (blanks ++ '\x7d' :: behind) ∧
    isStop stop = true ∧ (∀ c ∈ blanks, isBlank c = true) ∧
    byteLength (front ++ stop :: blanks) = offset

/-- A closing brace before another one, between which and the last stop there is no brace, stands up
to that stop. -/
theorem exists_front_of_seat_lt (front blanks behind front' blanks' behind' : List Char)
    (stop stop' : Char)
    (h : front ++ stop :: (blanks ++ '\x7d' :: behind) =
      front' ++ stop' :: (blanks' ++ '\x7d' :: behind'))
    (hbrace : '\x7d' ∉ blanks)
    (hlt : byteLength (front' ++ stop' :: blanks') < byteLength (front ++ stop :: blanks)) :
    ∃ more, front ++ [stop] = front' ++ stop' :: (blanks' ++ '\x7d' :: more) := by
  obtain ⟨between, hbetween⟩ := exists_append_of_byteLength_lt (front ++ stop :: blanks)
    ('\x7d' :: behind) (front' ++ stop' :: blanks') behind' (by simpa using h) hlt
  have hsplit : front ++ [stop] ++ blanks = front' ++ stop' :: blanks' ++ '\x7d' :: between := by
    simpa using hbetween
  rcases List.append_eq_append_iff.1 hsplit with ⟨rest, hfront, hrest⟩ | ⟨more, hfront, hrest⟩
  · exact absurd (by simp [hrest]) hbrace
  · cases more with
    | nil =>
        rw [List.nil_append] at hrest
        exact absurd (by simp [← hrest]) hbrace
    | cons c more =>
        obtain ⟨rfl, -⟩ := List.cons.inj hrest
        exact ⟨more, by simpa using hfront⟩

/-- A seat before a seat stays one, whatever takes the place of the blanks behind the later stop. -/
theorem IsSeat.before (front blanks behind inserted : List Char) (stop : Char) (place : Nat)
    (h : IsSeat (front ++ stop :: (blanks ++ '\x7d' :: behind)) place)
    (hblanks : ∀ c ∈ blanks, isBlank c = true)
    (hlt : place < byteLength (front ++ stop :: blanks)) :
    place + byteLength blanks < byteLength (front ++ stop :: blanks) ∧
      IsSeat (front ++ stop :: (inserted ++ '\x7d' :: behind)) place := by
  obtain ⟨front', stop', blanks', behind', hmask, hstop', hblanks', rfl⟩ := h
  obtain ⟨more, hmore⟩ := exists_front_of_seat_lt front blanks behind front' blanks' behind' stop
    stop' hmask (not_mem_of_isBlank _ _ hblanks (by decide)) hlt
  constructor
  · have hsize := congrArg byteLength hmore
    simp only [byteLength_append, byteLength, utf8Size_close] at hsize ⊢
    omega
  · refine ⟨front', stop', blanks', more ++ (inserted ++ '\x7d' :: behind), ?_, hstop', hblanks',
      rfl⟩
    calc front ++ stop :: (inserted ++ '\x7d' :: behind)
        = front ++ [stop] ++ (inserted ++ '\x7d' :: behind) := by simp
      _ = front' ++ stop' :: (blanks' ++ '\x7d' :: more) ++ (inserted ++ '\x7d' :: behind) := by
          rw [hmore]
      _ = front' ++ stop' :: (blanks' ++ '\x7d' :: (more ++ (inserted ++ '\x7d' :: behind))) := by
          simp

/-- A seat behind a seat moves with the text. -/
theorem IsSeat.behind (front blanks behind inserted : List Char) (stop : Char) (place : Nat)
    (h : IsSeat (front ++ stop :: (blanks ++ '\x7d' :: behind)) place)
    (hlt : byteLength (front ++ stop :: blanks) < place) :
    IsSeat (front ++ stop :: (inserted ++ '\x7d' :: behind))
      (place - byteLength blanks + byteLength inserted) := by
  obtain ⟨front', stop', blanks', behind', hmask, hstop', hblanks', rfl⟩ := h
  obtain ⟨more, hmore⟩ := exists_front_of_seat_lt front' blanks' behind' front blanks behind stop'
    stop hmask.symm (not_mem_of_isBlank _ _ hblanks' (by decide)) hlt
  obtain ⟨between, hbetween⟩ : ∃ between, '\x7d' :: more = between ++ [stop'] := by
    obtain hnil | ⟨between, last, hlast⟩ := List.eq_nil_or_concat ('\x7d' :: more)
    · cases hnil
    · rw [List.concat_eq_append] at hlast
      have hends : front' ++ [stop'] = front ++ stop :: (blanks ++ between) ++ [last] := by
        rw [hmore, hlast]
        simp
      obtain ⟨-, hstops⟩ := List.append_inj' hends rfl
      exact ⟨between, by rw [hlast, hstops]⟩
  rw [hbetween] at hmore
  obtain rfl : front' = front ++ stop :: (blanks ++ between) := by
    have hends : front' ++ [stop'] = front ++ stop :: (blanks ++ between) ++ [stop'] := by
      rw [hmore]
      simp
    exact (List.append_inj' hends rfl).1
  refine ⟨front ++ stop :: (inserted ++ between), stop', blanks', behind', ?_, hstop', hblanks', ?_⟩
  · have hbehind : '\x7d' :: behind = between ++ stop' :: (blanks' ++ '\x7d' :: behind') := by
      simpa using hmask
    rw [hbehind]
    simp
  · simp only [byteLength_append, byteLength]
    omega

/-- What an insertion at a seat does: it completes the classes that end there and moves what stands
behind it, `added` bytes taking the place of `removed` ones; the other seats stay seats. -/
structure CompletesSeat (text : List Char) (offset removed added : Nat) (result : List Char) :
    Prop where
  outline_eq : outlineChars result =
    (outlineChars text).map (ClassOutline.completedAt offset removed added)
  removed_le : removed ≤ offset
  length_eq : byteLength result + removed = byteLength text + added
  before : ∀ place < offset, IsSeat (mask text) place →
    place + removed < offset ∧ IsSeat (mask result) place
  behind : ∀ place, offset < place → IsSeat (mask text) place →
    IsSeat (mask result) (place - removed + added)

/-- A member can be inserted at a seat. -/
theorem exists_insertChars_seat (text unit : List Char) (offset : Nat) (names : List String)
    (hseat : IsSeat (mask text) offset) (hunit : ∀ c ∈ unit, isIndentChar c = true)
    (hnames : ∀ name ∈ names, isName name.toList = true) :
    ∃ result removed added,
      insertChars text offset (joinWith ['\n'] (csharpLines unit names)) unit = .ok result ∧
      CompletesSeat text offset removed added result := by
  obtain ⟨front, stop, blanks, behind, hmask, hstop, hblanks, rfl⟩ := hseat
  obtain ⟨result, override, hresult, hmask', -⟩ := mask_insertChars text front blanks behind unit
    stop names hmask (not_isBlank_of_isStop stop hstop) hblanks hunit hnames
  have hoffset : byteLength (front ++ stop :: blanks) =
      byteLength (front ++ [stop]) + byteLength blanks := by
    simp [byteLength, Nat.add_assoc]
  refine ⟨result, byteLength blanks, byteLength override.text, hresult, ?_, ?_, ?_, ?_, ?_⟩
  · change outlineMasked (mask result) = (outlineMasked (mask text)).map _
    rw [hmask, hmask', hoffset]
    exact outlineMasked_override front stop hstop blanks behind hblanks override
  · omega
  · rw [← byteLength_mask result, ← byteLength_mask text, hmask, hmask']
    simp only [byteLength_append, byteLength]
    omega
  · rw [hmask, hmask']
    intro place hlt h
    exact h.before front blanks behind override.text stop place hblanks hlt
  · rw [hmask, hmask']
    intro place hlt h
    exact h.behind front blanks behind override.text stop place hlt

/-- How the outline of a class changes when it is completed or another class is: everything but the
offsets and the override stays, and an override is there if there was one or `added` says so. -/
structure KeepsOutline (added : ClassOutline → Bool) (old new : ClassOutline) : Prop where
  name_eq : new.name = old.name
  properties_eq : new.properties = old.properties
  open_isSome : new.bodyOpen.isSome = old.bodyOpen.isSome
  close_isSome : new.bodyClose.isSome = old.bodyClose.isSome
  hasToString_eq : new.hasToString = (old.hasToString || added old)

/-- Whether the body of a class closes at one of some offsets. -/
def closesAtOneOf (offsets : List Nat) (found : ClassOutline) : Bool :=
  offsets.any fun offset => found.bodyClose == some offset

/-- An offset that is left alone is reached by no offset that moves. -/
theorem movedOffset_eq_iff {place removed added offset target : Nat}
    (h : target + removed < place) :
    movedOffset place removed added offset = target ↔ offset = target := by
  unfold movedOffset
  split <;> omega

/-- One insertion and then others, all at seats before it. -/
theorem KeepsOutline.of_completedAt {offset removed added : Nat} {offsets : List Nat}
    {old new : ClassOutline} (hoffsets : ∀ place ∈ offsets, place + removed < offset)
    (h : KeepsOutline (closesAtOneOf offsets) (old.completedAt offset removed added) new) :
    KeepsOutline (closesAtOneOf (offset :: offsets)) old new := by
  obtain ⟨hname, hproperties, hopen, hclose, htoString⟩ := h
  refine ⟨hname, hproperties, ?_, ?_, ?_⟩
  · simpa [ClassOutline.completedAt] using hopen
  · simpa [ClassOutline.completedAt] using hclose
  · have hmoved : closesAtOneOf offsets (old.completedAt offset removed added) =
        closesAtOneOf offsets old := by
      unfold closesAtOneOf
      apply Bool.eq_iff_iff.2
      simp only [List.any_eq_true, beq_iff_eq, ClassOutline.completedAt, Option.map_eq_some_iff]
      constructor
      · rintro ⟨place, hplace, close, hold, hmove⟩
        exact ⟨place, hplace, by rw [hold, (movedOffset_eq_iff (hoffsets place hplace)).1 hmove]⟩
      · rintro ⟨place, hplace, hold⟩
        exact ⟨place, hplace, place, hold, (movedOffset_eq_iff (hoffsets place hplace)).2 rfl⟩
    rw [htoString, hmoved]
    simp [ClassOutline.completedAt, closesAtOneOf, Bool.or_assoc]

/-- Insertions at seats, from the last to the first, complete the classes that end at them. The
seats to come lie before the one at hand, so they are seats of the new text as well. -/
theorem exists_applyInsertions_seats (unit text : List Char) (insertions : List Insertion)
    (hunit : ∀ c ∈ unit, isIndentChar c = true)
    (hordered : insertions.Pairwise fun a b => b.offset < a.offset)
    (hseats : ∀ insertion ∈ insertions, IsSeat (mask text) insertion.offset)
    (hmembers : ∀ insertion ∈ insertions, ∃ names : List String,
      (∀ name ∈ names, isName name.toList = true) ∧
        insertion.member.text.toList = joinWith ['\n'] (csharpLines unit names)) :
    ∃ result, applyInsertions unit text insertions = .ok result ∧
      List.Forall₂ (KeepsOutline (closesAtOneOf (insertions.map Insertion.offset)))
        (outlineChars text) (outlineChars result) := by
  induction insertions generalizing text with
  | nil =>
      refine ⟨text, rfl, List.forall₂_same.2 ?_⟩
      intro found _
      exact ⟨rfl, rfl, rfl, rfl, by simp [closesAtOneOf]⟩
  | cons insertion rest ih =>
      obtain ⟨hfirst, hrest⟩ := List.pairwise_cons.1 hordered
      obtain ⟨names, hnames, hmember⟩ := hmembers insertion (by simp)
      obtain ⟨result, removed, added, hresult, hseat⟩ := exists_insertChars_seat text
        unit insertion.offset names (hseats insertion (by simp)) hunit hnames
      have hbefore : ∀ other ∈ rest,
          other.offset + removed < insertion.offset ∧ IsSeat (mask result) other.offset := by
        intro other hother
        exact hseat.before other.offset (hfirst other hother) (hseats other (by simp [hother]))
      obtain ⟨final, hfinal, hkept⟩ := ih result hrest
        (fun other hother => (hbefore other hother).2)
        fun other hother => hmembers other (by simp [hother])
      refine ⟨final, ?_, ?_⟩
      · rw [applyInsertions, hmember, hresult]
        exact hfinal
      · rw [hseat.outline_eq, List.forall₂_map_left_iff] at hkept
        refine hkept.imp ?_
        intro old new h
        apply h.of_completedAt
        intro place hplace
        obtain ⟨other, hother, rfl⟩ := List.mem_map.1 hplace
        exact (hbefore other hother).1

/-- The reason to skip a class depends on its name and properties and on whether it is closed. -/
theorem planClass_error_of_keepsOutline (indent reason : String) (added : ClassOutline → Bool)
    (old new : ClassOutline) (h : KeepsOutline added old new)
    (hplan : planClass indent old = .error reason) : planClass indent new = .error reason := by
  have hdescriptor : new.descriptor = old.descriptor := by
    simp only [ClassOutline.descriptor, h.name_eq, h.properties_eq]
  have hclose := h.close_isSome
  unfold planClass at hplan ⊢
  rw [hdescriptor]
  cases hold : old.bodyClose with
  | none =>
      have hnew : new.bodyClose = none := by simpa [hold] using hclose
      simpa only [hold, hnew] using hplan
  | some offset =>
      obtain ⟨offset', hnew⟩ : ∃ offset', new.bodyClose = some offset' := by
        rw [hold] at hclose
        exact Option.isSome_iff_exists.1 hclose
      simp only [hold] at hplan
      simp only [hnew]
      cases hgenerate : old.descriptor.generate { language := .csharp, indent } with
      | error invalid => simpa only [hgenerate] using hplan
      | ok member =>
          rw [hgenerate] at hplan
          cases hplan

/-- Once every class is completed that can be, nothing is left to insert, and the same classes are
skipped for the same reasons. -/
theorem plan_of_keepsOutline (indent : String) (old new : List ClassOutline)
    (h : List.Forall₂ (KeepsOutline (isFixable indent)) old new) :
    plan { indent } (new.filter fun found => !found.hasToString) =
      { insertions := []
        skipped := (plan { indent } (old.filter fun found => !found.hasToString)).skipped } := by
  induction h with
  | nil => rfl
  | @cons a b olds news hkeeps _ ih =>
      have htoString := hkeeps.hasToString_eq
      rw [List.filter_cons, List.filter_cons]
      cases hold : a.hasToString with
      | true =>
          have hnew : b.hasToString = true := by rw [htoString, hold, Bool.true_or]
          simp only [hnew, Bool.not_true, Bool.false_eq_true, if_false, ih]
      | false =>
          rw [hold, Bool.false_or, isFixable, hold, Bool.not_false, Bool.true_and, insertion?]
            at htoString
          simp only [Bool.not_false, if_true]
          cases hplan : planClass indent a with
          | ok insertion =>
              have hnew : b.hasToString = true := by rw [htoString, hplan]; rfl
              simp only [hnew, Bool.not_true, Bool.false_eq_true, if_false, ih, plan, hplan]
          | error reason =>
              have hnew : b.hasToString = false := by rw [htoString, hplan]; rfl
              have hsame := planClass_error_of_keepsOutline indent reason _ a b hkeeps hplan
              simp only [hnew, Bool.not_false, if_true, ih, plan, hplan, hsame, hkeeps.name_eq]

section Completion

variable (text indent : String)

/-- Classes that differ do not share an opening brace. -/
def OwnBodies : Prop :=
  (outline text).Pairwise fun a b => a.bodyOpen = none ∨ a.bodyOpen ≠ b.bodyOpen

/-- Behind the last member of every class that can be completed stand only blanks. -/
def EndsFinished : Prop :=
  ∀ found ∈ outline text, isFixable indent found = true →
    allBlank (unfinished (found.inside (mask text.toList))) = true

instance : Decidable (OwnBodies text) :=
  inferInstanceAs (Decidable (List.Pairwise _ _))

instance : Decidable (EndsFinished text indent) :=
  inferInstanceAs (Decidable (∀ found ∈ outline text, _))

variable {text indent}

/-- The closing brace of a class that ends finished is a seat. -/
theorem isSeat_of_endsFinished (hends : EndsFinished text indent) (found : ClassOutline)
    (hfound : found ∈ outline text) (hfixable : isFixable indent found = true) (offset : Nat)
    (hclose : found.bodyClose = some offset) : IsSeat (mask text.toList) offset := by
  obtain ⟨front, inside, behind, hbody⟩ :=
    exists_hasBody_of_isFixable indent text found hfound hfixable
  have hblank := hends found hfound hfixable
  rw [hbody.inside_eq, allBlank, List.all_eq_true] at hblank
  obtain ⟨more, stop, hstop, hmasked, hclose'⟩ := hbody.exists_stop
  exact ⟨more, stop, unfinished inside, behind, hmasked, hstop, hblank,
    Option.some.inj (hclose'.symm.trans hclose)⟩

theorem mem_plannedClasses_iff (found : ClassOutline) :
    found ∈ plannedClasses { indent } text ↔
      found ∈ outline text ∧ isFixable indent found = true :=
  List.mem_filter

/-- A class closes at one of the planned places exactly if it is to be completed itself. -/
theorem closesAtOneOf_plannedOffsets (hbodies : OwnBodies text) (found : ClassOutline)
    (hfound : found ∈ outline text) :
    closesAtOneOf ((descending (plannedInsertions { indent } text)).map Insertion.offset) found =
      isFixable indent found := by
  apply Bool.eq_iff_iff.2
  simp only [closesAtOneOf, List.any_eq_true, beq_iff_eq, List.mem_map,
    mem_descending_plannedInsertions_iff]
  constructor
  · rintro ⟨offset, ⟨insertion, ⟨other, hother, hinsertion⟩, rfl⟩, hclose⟩
    obtain ⟨hmem, hfixable⟩ := (mem_plannedClasses_iff other).1 hother
    obtain ⟨hclose', -, -⟩ := insertion?_eq_some _ _ _ hinsertion
    have hopen := bodyOpen_eq_of_bodyClose_eq (mask text.toList) found other _ hfound hmem hclose
      hclose'
    by_cases heq : found = other
    · rwa [heq]
    · exfalso
      obtain ⟨front, inside, behind, hbody⟩ :=
        exists_hasBody_of_isFixable indent text other hmem hfixable
      have hsymm : Std.Symm fun a b : ClassOutline =>
          a.bodyOpen = none ∨ a.bodyOpen ≠ b.bodyOpen := by
        constructor
        rintro a b (hnone | hne)
        · by_cases hb : b.bodyOpen = none
          · exact Or.inl hb
          · exact Or.inr (by rwa [hnone])
        · exact Or.inr (Ne.symm hne)
      rcases List.Pairwise.forall hbodies hfound hmem heq with hnone | hne
      · rw [hopen, hbody.open_eq] at hnone
        cases hnone
      · exact hne hopen
  · intro hfixable
    obtain ⟨insertion, hinsertion⟩ := exists_insertion?_of_isFixable indent found hfixable
    obtain ⟨hclose, -, -⟩ := insertion?_eq_some _ _ _ hinsertion
    have hplanned := (mem_plannedClasses_iff found).2 ⟨hfound, hfixable⟩
    exact ⟨insertion.offset, ⟨insertion, ⟨found, hplanned, hinsertion⟩, rfl⟩, hclose⟩

/-- The classes that are to be completed have bodies of their own. -/
theorem OwnBodies.plannedClasses (hbodies : OwnBodies text) :
    (plannedClasses { indent } text).Pairwise fun a b => a.bodyOpen ≠ b.bodyOpen := by
  refine (List.Pairwise.filter (isFixable indent) hbodies).imp_of_mem ?_
  rintro a b ha - (hnone | hne)
  · obtain ⟨hmem, hfixable⟩ := List.mem_filter.1 ha
    obtain ⟨front, inside, behind, hbody⟩ :=
      exists_hasBody_of_isFixable indent text a hmem hfixable
    rw [hbody.open_eq] at hnone
    cases hnone
  · exact hne

/-- The insertions planned for classes with bodies of their own are at different places. -/
theorem OwnBodies.nodup_plannedOffsets (hbodies : OwnBodies text) (style : CompletionStyle) :
    ((plannedInsertions style text).map Insertion.offset).Nodup := by
  have hplanned : (Edit.plannedClasses { indent := style.indent } text).Pairwise
      fun a b => a.bodyOpen ≠ b.bodyOpen := hbodies.plannedClasses
  rw [nodup_plannedOffsets_iff, pairwise_bodyClose_iff]
  refine hplanned.sublist ?_
  unfold Edit.plannedClasses
  split
  · exact List.take_sublist _ _
  · exact List.Sublist.refl _

/-- The names of the completed classes are those of the classes that could be. -/
theorem className_plannedInsertions :
    (plannedInsertions { indent } text).map Insertion.className =
      ((outline text).filter (isFixable indent)).map ClassOutline.name := by
  have hclasses : plannedClasses { indent } text = (outline text).filter (isFixable indent) := rfl
  rw [plannedInsertions_eq, hclasses]
  have hall : ∀ found ∈ (outline text).filter (isFixable indent), isFixable indent found = true :=
    fun found hfound => (List.mem_filter.1 hfound).2
  generalize (outline text).filter (isFixable indent) = classes at hall ⊢
  induction classes with
  | nil => rfl
  | cons found rest ih =>
      obtain ⟨insertion, hinsertion⟩ :=
        exists_insertion?_of_isFixable indent found (hall found (by simp))
      obtain ⟨-, hname, -⟩ := insertion?_eq_some _ _ _ hinsertion
      rw [List.filterMap_cons_some hinsertion, List.map_cons, List.map_cons, hname,
        ih fun other hother => hall other (by simp [hother])]

/-- What an insertion among the planned ones stands for. -/
theorem exists_fixable_of_mem_descending (insertion : Insertion)
    (h : insertion ∈ descending (plannedInsertions { indent } text)) :
    ∃ found ∈ outline text, isFixable indent found = true ∧
      insertion? indent found = some insertion := by
  obtain ⟨found, hfound, hsome⟩ := mem_descending_plannedInsertions_iff.1 h
  obtain ⟨houtline, hfixable⟩ := (mem_plannedClasses_iff found).1 hfound
  exact ⟨found, houtline, hfixable, hsome⟩

/-- The members that are planned are made of lines. -/
theorem exists_csharpLines_of_mem_descending (insertion : Insertion)
    (h : insertion ∈ descending (plannedInsertions { indent } text)) :
    ∃ names : List String, (∀ name ∈ names, isName name.toList = true) ∧
      insertion.member.text.toList = joinWith ['\n'] (csharpLines indent.toList names) := by
  obtain ⟨found, -, -, hsome⟩ := exists_fixable_of_mem_descending _ h
  obtain ⟨-, -, hgenerate⟩ := insertion?_eq_some _ _ _ hsome
  obtain ⟨hmember, hnames⟩ := generate_csharp_eq_ok _ _ _ hgenerate
  exact ⟨_, hnames, hmember⟩

/-- The planned insertions can be carried out, and exactly the classes that can be completed get an
override. -/
theorem exists_applyInsertions_planned (hindent : ∀ c ∈ indent.toList, isIndentChar c = true)
    (hbodies : OwnBodies text) (hends : EndsFinished text indent) :
    ∃ result, applyInsertions indent.toList text.toList
        (descending (plannedInsertions { indent } text)) = .ok result ∧
      List.Forall₂ (KeepsOutline (isFixable indent)) (outline text) (outlineChars result) := by
  have hordered := descending_pairwise _ (hbodies.nodup_plannedOffsets { indent })
  have hseats : ∀ insertion ∈ descending (plannedInsertions { indent } text),
      IsSeat (mask text.toList) insertion.offset := by
    intro insertion hinsertion
    obtain ⟨found, hfound, hfixable, hsome⟩ := exists_fixable_of_mem_descending _ hinsertion
    obtain ⟨hclose, -, -⟩ := insertion?_eq_some _ _ _ hsome
    exact isSeat_of_endsFinished hends found hfound hfixable _ hclose
  obtain ⟨result, hresult, hkept⟩ := exists_applyInsertions_seats indent.toList text.toList _
    hindent hordered hseats exists_csharpLines_of_mem_descending
  refine ⟨result, hresult, ?_⟩
  have hmem := (List.forall₂_and_left _ _).2 ⟨fun found hfound => hfound, hkept⟩
  refine hmem.imp ?_
  rintro old new ⟨hold, h⟩
  have htoString := h.hasToString_eq
  rw [closesAtOneOf_plannedOffsets hbodies old hold] at htoString
  exact ⟨h.name_eq, h.properties_eq, h.open_isSome, h.close_isSome, htoString⟩

end Completion

/-- A text without planned insertions is completed as it is. -/
theorem complete_of_no_insertions (text : String) (style : CompletionStyle)
    (skipped : List (String × String))
    (h : plan style (lackingToString text) = { insertions := [], skipped }) :
    complete text style = .ok { text, completed := [], skipped } := by
  simp [complete, h, descending, applyInsertions]

/-- Completing a text gives the classes of the old outline again, in order and with their names and
properties, and exactly the completed ones have a further override; completing the result changes
nothing and skips the same classes. -/
theorem complete_keepsOutline_and_stable (text indent : String)
    (hindent : ∀ c ∈ indent.toList, isIndentChar c = true) (hbodies : OwnBodies text)
    (hends : EndsFinished text indent) :
    ∃ completion, complete text { indent } = .ok completion ∧
      completion.completed.Perm (((outline text).filter (isFixable indent)).map ClassOutline.name) ∧
      List.Forall₂ (KeepsOutline (isFixable indent)) (outline text) (outline completion.text) ∧
      complete completion.text { indent } = .ok { completion with completed := [] } := by
  obtain ⟨result, hresult, hkept⟩ := exists_applyInsertions_planned hindent hbodies hends
  have houtline : outline (String.ofList result) = outlineChars result := by
    rw [outline, String.toList_ofList]
  refine ⟨_, complete_eq_ok text { indent } result hresult, ?_, ?_, ?_⟩
  · rw [← className_plannedInsertions]
    exact (List.reverse_perm _).trans ((descending_perm _).map _)
  · rw [houtline]
    exact hkept
  · apply complete_of_no_insertions
    rw [lackingToString, houtline]
    exact plan_of_keepsOutline indent _ _ hkept

/-- A class in a class, a comment and a literal with a brace, and a class that is not closed. -/
def mixedClasses : String :=
  "class Outer \x7b\r\n\tint X \x7b get; \x7d // \x7d\r\n" ++
    "\tclass Inner \x7b string @class => \"\x7d\"; \x7d\r\n\x7d\r\nclass Open \x7b int Y;"

theorem complete_mixedClasses :
    OwnBodies mixedClasses ∧ EndsFinished mixedClasses "\t" ∧
      ∃ completion, complete mixedClasses { indent := "\t" } = .ok completion ∧
        completion.completed.Perm
          (((outline mixedClasses).filter (isFixable "\t")).map ClassOutline.name) ∧
        List.Forall₂ (KeepsOutline (isFixable "\t")) (outline mixedClasses)
          (outline completion.text) ∧
        complete completion.text { indent := "\t" } = .ok { completion with completed := [] } := by
  have hbodies : OwnBodies mixedClasses := by decide +kernel
  have hends : EndsFinished mixedClasses "\t" := by decide +kernel
  exact ⟨hbodies, hends,
    complete_keepsOutline_and_stable mixedClasses "\t" (by decide) hbodies hends⟩

end RecordText.Edit
