import RecordText.Proofs.CompletedText
import RecordText.Proofs.CompletionReport
import RecordText.Proofs.UnfinishedHeaders
import RecordText.Proofs.UnfinishedPieces

/-!
# Completing a text twice

A completed class is complete if the override is read as one behind what its
body ends with, and if no class comes into being there. An unfinished member at
the end of the body can prevent both: the signature of the override is read
together with it, and a header in it takes the block of the override for its
body. The second completion of a text changes nothing exactly if this happens
in none of the completed classes.

## Main statements

* `exists_insertChars_end`: what one insertion leaves to be completed.
* `exists_applyInsertions_ends`: the same for all insertions together.
* `complete_twice_iff`: when the second completion finds nothing to complete.
-/

namespace RecordText.Edit

open RecordText.Text
open RecordText.Source

/-- Whether an override behind the last, unfinished piece of a class body completes the class for
good: it is read as an override there, and no class in the piece can be described. -/
def finishesClass (piece : List Char) : Bool :=
  takesOverride piece &&
    (outlineMasked piece).all fun found => !(found.descriptor.validate .csharp).isOk

/-- The closing brace at an offset stands behind a last piece of text without stops. -/
def IsEnd (masked : List Char) (offset : Nat) (rest : List Char) : Prop :=
  ∃ front stop behind, masked = front ++ stop :: (rest ++ '\x7d' :: behind) ∧
    isStop stop = true ∧ (∀ c ∈ rest, isStop c = false) ∧
    byteLength (front ++ stop :: rest) = offset

/-- Among some classes, one that can be completed closes at this place. -/
def IsDue (indent : String) (classes : List ClassOutline) (place : Nat) : Prop :=
  ∃ found ∈ classes, isFixable indent found = true ∧ found.bodyClose = some place

/-! ### Ends of class bodies -/

/-- There is one last piece in front of a closing brace. -/
theorem IsEnd.unique {masked rest rest' : List Char} {offset : Nat} (h : IsEnd masked offset rest)
    (h' : IsEnd masked offset rest') : rest = rest' := by
  obtain ⟨front, stop, behind, hmasked, hstop, hrest, hoffset⟩ := h
  obtain ⟨front', stop', behind', hmasked', hstop', hrest', hoffset'⟩ := h'
  have hsame : front ++ stop :: rest = front' ++ stop' :: rest' := by
    have hwhole : front ++ stop :: rest ++ '\x7d' :: behind =
        front' ++ stop' :: rest' ++ '\x7d' :: behind' := by
      simpa using hmasked.symm.trans hmasked'
    exact (append_inj_of_byteLength _ _ _ _ hwhole (hoffset.trans hoffset'.symm)).1
  have htake : ∀ (front rest : List Char) (stop : Char), isStop stop = true →
      (∀ c ∈ rest, isStop c = false) →
      (front ++ stop :: rest).reverse.takeWhile (!isStop ·) = rest.reverse := by
    intro front rest stop hstop hrest
    have hcut := (takeWhile_dropWhile_of_stop (p := (!isStop ·)) rest.reverse
      (stop :: front.reverse) (fun c hc => by simp [hrest c (List.mem_reverse.1 hc)])
      (by simp [hstop])).1
    simpa using hcut
  have hreverse := htake front rest stop hstop hrest
  rw [hsame, htake front' rest' stop' hstop' hrest'] at hreverse
  exact (List.reverse_inj.1 hreverse).symm

/-- An end before an end stays one, whatever takes the place of the last piece of the later one. -/
theorem IsEnd.before (front rest behind inserted other : List Char) (stop : Char) (place : Nat)
    (h : IsEnd (front ++ stop :: (rest ++ '\x7d' :: behind)) place other)
    (hrest : ∀ c ∈ rest, isStop c = false)
    (hlt : place < byteLength (front ++ stop :: rest)) :
    place < byteLength (front ++ [stop]) ∧
      IsEnd (front ++ stop :: (inserted ++ '\x7d' :: behind)) place other := by
  obtain ⟨front', stop', behind', hmask, hstop', hother, rfl⟩ := h
  have hbrace : '\x7d' ∉ rest := fun hmem => by cases hrest _ hmem
  obtain ⟨more, hmore⟩ :=
    exists_front_of_seat_lt front rest behind front' other behind' stop stop' hmask hbrace hlt
  constructor
  · rw [hmore]
    simp only [byteLength_append, byteLength, utf8Size_close]
    omega
  · refine ⟨front', stop', more ++ (inserted ++ '\x7d' :: behind), ?_, hstop', hother, rfl⟩
    calc front ++ stop :: (inserted ++ '\x7d' :: behind)
        = front ++ [stop] ++ (inserted ++ '\x7d' :: behind) := by simp
      _ = front' ++ stop' :: (other ++ '\x7d' :: more) ++ (inserted ++ '\x7d' :: behind) := by
          rw [hmore]
      _ = front' ++ stop' :: (other ++ '\x7d' :: (more ++ (inserted ++ '\x7d' :: behind))) := by
          simp

/-- A text is its trimmed form and blanks. -/
theorem exists_trimEnd_append (text : List Char) :
    ∃ blanks, text = trimEnd text ++ blanks ∧ (∀ c ∈ blanks, isBlank c = true) ∧
      ∀ c ∈ (trimEnd text).getLast?, isBlank c = false := by
  refine ⟨(text.reverse.takeWhile isBlank).reverse, ?_, ?_, ?_⟩
  · rw [trimEnd, ← List.reverse_append, List.takeWhile_append_dropWhile, List.reverse_reverse]
  · intro c hc
    exact List.mem_takeWhile_imp (List.mem_reverse.1 hc)
  · intro c hc
    rw [trimEnd, List.getLast?_reverse] at hc
    have hhead := List.head?_dropWhile_not isBlank text.reverse
    rw [Option.mem_def.1 hc] at hhead
    simpa using hhead

/-- A member inserted in front of a closing brace is an override behind the last piece. -/
theorem mask_insertChars_piece (text front rest behind unit : List Char) (stop : Char)
    (names : List String) (hmask : mask text = front ++ stop :: (rest ++ '\x7d' :: behind))
    (hstop : isStop stop = true) (hunit : ∀ c ∈ unit, isIndentChar c = true)
    (hnames : ∀ name ∈ names, isName name.toList = true) :
    ∃ result blanks, ∃ override : OverrideText,
      insertChars text (byteLength (front ++ stop :: rest))
        (joinWith ['\n'] (csharpLines unit names)) unit = .ok result ∧
      rest = trimEnd rest ++ blanks ∧ (∀ c ∈ blanks, isBlank c = true) ∧
      mask result = front ++ stop :: (trimEnd rest ++ (override.text ++ '\x7d' :: behind)) ∧
      override.lead ≠ [] := by
  obtain ⟨blanks, hrest, hblanks, hlast⟩ := exists_trimEnd_append rest
  generalize trimEnd rest = piece at hrest hlast ⊢
  subst hrest
  obtain ⟨more, sign, hmore, hsign⟩ : ∃ more sign, stop :: piece = more ++ [sign] ∧
      isBlank sign = false := by
    rcases List.eq_nil_or_concat piece with rfl | ⟨inner, sign, rfl⟩
    · exact ⟨[], stop, rfl, not_isBlank_of_isStop stop hstop⟩
    · exact ⟨stop :: inner, sign, by simp, hlast sign (by simp)⟩
  have hsplit : ∀ more', front ++ stop :: (piece ++ more') = front ++ more ++ sign :: more' := by
    intro more'
    rw [← List.cons_append, hmore]
    simp
  rw [List.append_assoc, hsplit] at hmask
  obtain ⟨result, override, hresult, hmask', hlead⟩ := mask_insertChars text (front ++ more) blanks
    behind unit sign names hmask hsign hblanks hunit hnames
  refine ⟨result, blanks, override, ?_, rfl, hblanks, ?_, hlead⟩
  · rw [hsplit]
    exact hresult
  · rw [hsplit]
    exact hmask'

/-! ### One insertion -/

section Due

variable (indent : String)

theorem isDue_append (classes others : List ClassOutline) (place : Nat) :
    IsDue indent (classes ++ others) place ↔
      IsDue indent classes place ∨ IsDue indent others place := by
  simp only [IsDue, List.mem_append, or_and_right, exists_or]

theorem not_isDue_of_unclosed (classes : List ClassOutline) (place : Nat)
    (h : ∀ found ∈ classes, found.bodyClose = none) : ¬ IsDue indent classes place := by
  rintro ⟨found, hfound, -, hclose⟩
  rw [h found hfound] at hclose
  cases hclose

/-- A filled class can be completed if it could be before, unless it got the override. -/
theorem isFixable_filledAt (place removed added : Nat) (isOverride : Bool) (found : ClassOutline) :
    isFixable indent (found.filledAt place removed added isOverride) =
      (isFixable indent found && !(isOverride && found.bodyClose == some place)) := by
  have hcompletable : isCompletable (found.filledAt place removed added isOverride) =
      isCompletable found := by
    simp only [isCompletable, ClassOutline.filledAt, ClassOutline.descriptor, Option.isSome_map]
  have htoString : (found.filledAt place removed added isOverride).hasToString =
      (found.hasToString || (isOverride && found.bodyClose == some place)) := rfl
  rw [isFixable, isFixable, isSome_insertion?_eq, isSome_insertion?_eq, hcompletable, htoString,
    Bool.not_or, Bool.and_right_comm]

theorem isDue_map_filledAt (offset removed added : Nat) (isOverride : Bool)
    (classes : List ClassOutline) (place : Nat) :
    IsDue indent (classes.map (ClassOutline.filledAt offset removed added isOverride)) place ↔
      ∃ close, IsDue indent classes close ∧ ¬ (isOverride = true ∧ close = offset) ∧
        movedOffset offset removed added close = place := by
  constructor
  · rintro ⟨_, hmem, hfixable, hclose⟩
    obtain ⟨found, hfound, rfl⟩ := List.mem_map.1 hmem
    obtain ⟨close, hold, hmoved⟩ := Option.map_eq_some_iff.1 hclose
    rw [isFixable_filledAt, Bool.and_eq_true, hold] at hfixable
    refine ⟨close, ⟨found, hfound, hfixable.1, hold⟩, ?_, hmoved⟩
    rintro ⟨rfl, rfl⟩
    simp at hfixable
  · rintro ⟨close, ⟨found, hfound, hfixable, hold⟩, hnot, hmoved⟩
    refine ⟨_, List.mem_map_of_mem hfound, ?_, Option.map_eq_some_iff.2 ⟨close, hold, hmoved⟩⟩
    rw [isFixable_filledAt, hfixable, hold, Bool.true_and, Bool.not_eq_true']
    simpa using hnot

/-- A class with the block of the override for its body can be completed if it can be described. -/
theorem isFixable_of_takesBlock (offset : Nat) (found : ClassOutline)
    (h : found.TakesBlock offset) : isFixable indent found = isDescribable found.name := by
  obtain ⟨hproperties, htoString, close, hclose, -⟩ := h
  rw [isFixable, isSome_insertion?_eq, isCompletable, htoString, hclose, ClassOutline.descriptor,
    hproperties]
  rfl

theorem forall_not_isDue_takesBlock_iff (offset : Nat) (classes : List ClassOutline)
    (h : ∀ found ∈ classes, found.TakesBlock offset) :
    (∀ place, ¬ IsDue indent classes place) ↔
      ∀ found ∈ classes, isDescribable found.name = false := by
  constructor
  · intro hnone found hfound
    by_contra hdescribable
    obtain ⟨-, -, close, hclose, -⟩ := h found hfound
    refine hnone close ⟨found, hfound, ?_, hclose⟩
    rw [isFixable_of_takesBlock indent offset found (h found hfound)]
    simpa using hdescribable
  · rintro hnone place ⟨found, hfound, hfixable, -⟩
    rw [isFixable_of_takesBlock indent offset found (h found hfound), hnone found hfound]
      at hfixable
    cases hfixable

end Due

/-- Offsets that move stay on their side of what stands before all that is removed. -/
theorem movedOffset_lt_iff {place removed added offset start : Nat} (h : start + removed ≤ place) :
    movedOffset place removed added offset < start ↔ offset < start := by
  unfold movedOffset
  split <;> omega

theorem finishesClass_iff (piece : List Char) :
    finishesClass piece = true ↔ takesOverride piece = true ∧
      ∀ found ∈ outlineMasked piece, (found.descriptor.validate .csharp).isOk = false := by
  simp [finishesClass]

/-- What an insertion in front of a closing brace leaves to be completed: everything before the last
piece, and nothing behind exactly if it finishes the classes that close there and nothing was to be
completed behind. -/
structure SettlesEnd (indent : String) (text : List Char) (start offset : Nat) (piece : List Char)
    (result : List Char) : Prop where
  start_le : start ≤ offset
  before_iff : ∀ place < start,
    IsDue indent (outlineChars result) place ↔ IsDue indent (outlineChars text) place
  all_before_iff : (∀ place, IsDue indent (outlineChars result) place → place < start) ↔
    finishesClass piece = true ∧
      ∀ place, IsDue indent (outlineChars text) place → place < start ∨ place = offset
  before : ∀ place < offset, ∀ other, IsEnd (mask text) place other →
    place < start ∧ IsEnd (mask result) place other

/-- Of the classes that are kept and those that take the block of the override, the ones that can
be completed close before the last piece under the conditions given. -/
theorem isDue_filled (indent : String) (kept taking : List ClassOutline)
    (start offset removed added : Nat) (isOverride : Bool) (hsize : start + removed ≤ offset)
    (htaking : ∀ found ∈ taking, found.TakesBlock start) (hdue : IsDue indent kept offset)
    (new : Nat → Prop) (hnew : ∀ place, new place ↔
      IsDue indent (kept.map (ClassOutline.filledAt offset removed added isOverride)) place ∨
        IsDue indent taking place) :
    (∀ place < start, new place ↔ IsDue indent kept place) ∧
      ((∀ place, new place → place < start) ↔
        (isOverride = true ∧ ∀ found ∈ taking, isDescribable found.name = false) ∧
          ∀ place, IsDue indent kept place → place < start ∨ place = offset) := by
  have hbehind : ∀ place, IsDue indent taking place → start ≤ place := by
    rintro place ⟨found, hfound, -, hclose⟩
    obtain ⟨-, -, close, hclose', hle⟩ := htaking found hfound
    obtain rfl := Option.some.inj (hclose.symm.trans hclose')
    exact hle
  simp only [isDue_map_filledAt] at hnew
  refine ⟨?_, ?_⟩
  · intro place hplace
    rw [hnew]
    constructor
    · rintro (⟨close, hclose, -, hmoved⟩ | htaken)
      · rwa [← (movedOffset_eq_iff (by omega)).1 hmoved]
      · have hle := hbehind place htaken
        omega
    · intro hkept
      refine Or.inl ⟨place, hkept, fun h => ?_, (movedOffset_eq_iff (by omega)).2 rfl⟩
      omega
  · rw [← forall_not_isDue_takesBlock_iff indent start taking htaking]
    constructor
    · intro hall
      have hmoved : ∀ close, IsDue indent kept close → ¬ (isOverride = true ∧ close = offset) →
          close < start := by
        intro close hclose hnot
        exact (movedOffset_lt_iff hsize).1 (hall _ ((hnew _).2 (Or.inl ⟨close, hclose, hnot, rfl⟩)))
      refine ⟨⟨?_, ?_⟩, ?_⟩
      · by_contra hoverride
        exact absurd (hmoved offset hdue fun h => hoverride h.1) (by omega)
      · intro place htaken
        have hlt := hall place ((hnew place).2 (Or.inr htaken))
        exact absurd hlt (Nat.not_lt.2 (hbehind place htaken))
      · intro place hkept
        by_cases heq : place = offset
        · exact Or.inr heq
        · exact Or.inl (hmoved place hkept fun h => heq h.2)
    · rintro ⟨⟨hoverride, hnone⟩, hall⟩ place hplace
      rcases (hnew place).1 hplace with ⟨close, hclose, hnot, rfl⟩ | htaken
      · rcases hall close hclose with hlt | heq
        · exact (movedOffset_lt_iff hsize).2 hlt
        · exact absurd ⟨hoverride, heq⟩ hnot
      · exact absurd htaken (hnone place)

/-- Behind an unfinished piece an override takes the place of blanks: the classes that can be
completed are those of before, filled, and those that take the block of the override. -/
theorem exists_kept_taking (indent : String) (front : List Char) (stop : Char)
    (piece blanks behind : List Char) (override : OverrideText) (hstop : isStop stop = true)
    (hpiece : ∀ c ∈ piece, isStop c = false) (hblanks : ∀ c ∈ blanks, isBlank c = true)
    (hlead : override.lead ≠ []) : ∃ kept taking : List ClassOutline,
      (∀ place, IsDue indent
          (outlineMasked (front ++ stop :: (piece ++ (blanks ++ '\x7d' :: behind)))) place ↔
        IsDue indent kept place) ∧
      (∀ place, IsDue indent
          (outlineMasked (front ++ stop :: (piece ++ (override.text ++ '\x7d' :: behind)))) place ↔
        IsDue indent (kept.map (ClassOutline.filledAt
          (byteLength (front ++ [stop]) + byteLength piece + byteLength blanks) (byteLength blanks)
          (byteLength override.text) (takesOverride piece))) place ∨ IsDue indent taking place) ∧
      (∀ found ∈ taking, found.TakesBlock (byteLength (front ++ [stop]))) ∧
      ((∀ found ∈ taking, isDescribable found.name = false) ↔
        ∀ found ∈ outlineMasked piece, (found.descriptor.validate .csharp).isOk = false) := by
  obtain ⟨up, down, hold, hnew⟩ := exists_outlineMasked_piece stop hstop piece blanks behind hpiece
    hblanks override (takesOverride piece) (declared?_piece_head piece override) front
  refine ⟨up ++ down, (headers (front ++ [stop]).reverse (byteLength (front ++ [stop]))
    (piece ++ (override.head ++ ['\x7b']))).map (Header.outline ∘ Header.extend
      (override.body ++ '\x7d' :: (override.trail ++ '\x7d' :: behind))), ?_, ?_, ?_, ?_⟩
  · have hunclosed : ∀ found ∈ (headers (front ++ [stop]).reverse (byteLength (front ++ [stop]))
        (piece ++ blanks ++ ['\x7d'])).map (Header.outline ∘ Header.extend behind),
        found.bodyClose = none := by
      intro found hfound
      obtain ⟨header, hheader, rfl⟩ := List.mem_map.1 hfound
      exact bodyClose_of_mem_headers _ _ _ _ (List.forall_mem_append.2 ⟨hpiece, fun c hc =>
        not_isStop_of_isBlank c (hblanks c hc)⟩) header hheader
    intro place
    rw [hold, isDue_append, isDue_append, isDue_append,
      iff_false_intro (not_isDue_of_unclosed indent _ place hunclosed), false_or]
  · intro place
    rw [hnew, isDue_append, isDue_append, List.map_append, isDue_append]
    tauto
  · intro found hfound
    obtain ⟨header, hheader, rfl⟩ := List.mem_map.1 hfound
    exact takesBlock_of_mem_headers piece hpiece override _ _ _ header hheader
  · rw [← forall_describable_piece_iff piece hpiece override front.reverse stop hstop
      (byteLength (front ++ [stop])) hlead, List.forall_mem_map, List.reverse_append]
    simp only [Function.comp, Header.outline_name]
    rfl

/-- A member can be inserted at the end of a class body where a class can be completed. -/
theorem exists_insertChars_end (indent : String) (text unit : List Char) (offset : Nat)
    (rest : List Char) (names : List String) (hend : IsEnd (mask text) offset rest)
    (hdue : IsDue indent (outlineChars text) offset) (hunit : ∀ c ∈ unit, isIndentChar c = true)
    (hnames : ∀ name ∈ names, isName name.toList = true) :
    ∃ result start,
      insertChars text offset (joinWith ['\n'] (csharpLines unit names)) unit = .ok result ∧
      SettlesEnd indent text start offset (trimEnd rest) result := by
  obtain ⟨front, stop, behind, hmask, hstop, hrest, rfl⟩ := hend
  obtain ⟨result, blanks, override, hresult, hsplit, hblanks, hmask', hlead⟩ :=
    mask_insertChars_piece text front rest behind unit stop names hmask hstop hunit hnames
  have hpiece : ∀ c ∈ trimEnd rest, isStop c = false :=
    fun c hc => hrest c (by rw [hsplit]; simp [hc])
  obtain ⟨kept, taking, hold, hnew, htaking, hdescribable⟩ := exists_kept_taking indent front stop
    (trimEnd rest) blanks behind override hstop hpiece hblanks hlead
  have hoffset : byteLength (front ++ stop :: rest) =
      byteLength (front ++ [stop]) + byteLength (trimEnd rest) + byteLength blanks := by
    have hbytes := congrArg byteLength hsplit
    simp only [byteLength_append, byteLength] at hbytes ⊢
    omega
  have htext : outlineChars text = outlineMasked
      (front ++ stop :: (trimEnd rest ++ (blanks ++ '\x7d' :: behind))) := by
    change outlineMasked (mask text) = _
    rw [hmask, ← List.append_assoc (trimEnd rest), ← hsplit]
  have hresult' : outlineChars result = outlineMasked
      (front ++ stop :: (trimEnd rest ++ (override.text ++ '\x7d' :: behind))) := by
    change outlineMasked (mask result) = _
    rw [hmask']
  rw [← htext] at hold
  rw [← hresult', ← hoffset] at hnew
  obtain ⟨hless, hall⟩ := isDue_filled indent kept taking (byteLength (front ++ [stop]))
    (byteLength (front ++ stop :: rest)) (byteLength blanks) (byteLength override.text)
    (takesOverride (trimEnd rest)) (by omega) htaking ((hold _).1 hdue)
    (IsDue indent (outlineChars result)) hnew
  refine ⟨result, byteLength (front ++ [stop]), hresult, by omega, ?_, ?_, ?_⟩
  · intro place hplace
    rw [hless place hplace, hold]
  · rw [hall, hdescribable, finishesClass_iff]
    simp only [hold]
  · intro place hplace other hother
    rw [hmask] at hother
    rw [hmask', ← List.append_assoc]
    exact hother.before front rest behind _ other stop place hrest hplace

/-- Everything left to be completed is where it may be, before the last piece, exactly if the
insertion finishes its classes and everything else to be completed was there. -/
theorem SettlesEnd.forall_isDue_iff {indent : String} {text piece result : List Char}
    {start offset : Nat} (h : SettlesEnd indent text start offset piece result)
    (allowed : Nat → Prop) (hallowed : ∀ place, allowed place → place < start) :
    (∀ place, IsDue indent (outlineChars result) place → allowed place) ↔
      finishesClass piece = true ∧
        ∀ place, IsDue indent (outlineChars text) place → offset = place ∨ allowed place := by
  constructor
  · intro hall
    obtain ⟨hfinishes, hplaces⟩ :=
      h.all_before_iff.1 fun place hplace => hallowed place (hall place hplace)
    refine ⟨hfinishes, fun place hplace => ?_⟩
    rcases hplaces place hplace with hlt | heq
    · exact Or.inr (hall place ((h.before_iff place hlt).2 hplace))
    · exact Or.inl heq.symm
  · rintro ⟨hfinishes, hplaces⟩ place hplace
    have hbefore := h.all_before_iff.2 ⟨hfinishes, fun other hother =>
      (hplaces other hother).symm.imp (hallowed other) Eq.symm⟩
    have hlt := hbefore place hplace
    rcases hplaces place ((h.before_iff place hlt).1 hplace) with rfl | hallow
    · exact absurd hlt (Nat.not_lt.2 h.start_le)
    · exact hallow

/-- Insertions at ends of class bodies, from the last to the first, leave nothing to be completed
exactly if every one of them finishes its classes and nothing else was to be completed. The ends to
come lie before the one at hand, so they are ends of the new text as well. -/
theorem exists_applyInsertions_ends (indent : String) (unit text : List Char)
    (insertions : List Insertion) (hunit : ∀ c ∈ unit, isIndentChar c = true)
    (hordered : insertions.Pairwise fun a b => b.offset < a.offset)
    (hends : ∀ insertion ∈ insertions, ∃ rest, IsEnd (mask text) insertion.offset rest)
    (hdue : ∀ insertion ∈ insertions, IsDue indent (outlineChars text) insertion.offset)
    (hmembers : ∀ insertion ∈ insertions, ∃ names : List String,
      (∀ name ∈ names, isName name.toList = true) ∧
        insertion.member.text.toList = joinWith ['\n'] (csharpLines unit names)) :
    ∃ result, applyInsertions unit text insertions = .ok result ∧
      ((∀ place, ¬ IsDue indent (outlineChars result) place) ↔
        (∀ insertion ∈ insertions, ∀ rest, IsEnd (mask text) insertion.offset rest →
          finishesClass (trimEnd rest) = true) ∧
        ∀ place, IsDue indent (outlineChars text) place →
          ∃ insertion ∈ insertions, insertion.offset = place) := by
  induction insertions generalizing text with
  | nil => exact ⟨text, rfl, by simp⟩
  | cons insertion others ih =>
      obtain ⟨hfirst, hothers⟩ := List.pairwise_cons.1 hordered
      obtain ⟨⟨rest, hrest⟩, hends⟩ := List.forall_mem_cons.1 hends
      obtain ⟨hplace, hdue⟩ := List.forall_mem_cons.1 hdue
      obtain ⟨⟨names, hnames, hmember⟩, hmembers⟩ := List.forall_mem_cons.1 hmembers
      obtain ⟨result, start, hresult, hsettles⟩ := exists_insertChars_end indent text unit
        insertion.offset rest names hrest hplace hunit hnames
      have hbefore : ∀ other ∈ others, ∀ piece, IsEnd (mask text) other.offset piece →
          other.offset < start ∧ IsEnd (mask result) other.offset piece :=
        fun other hother => hsettles.before other.offset (hfirst other hother)
      have hless : ∀ other ∈ others, other.offset < start := by
        intro other hother
        obtain ⟨piece, hpiece⟩ := hends other hother
        exact (hbefore other hother piece hpiece).1
      have hsame : ∀ other ∈ others, ∀ piece,
          IsEnd (mask result) other.offset piece ↔ IsEnd (mask text) other.offset piece := by
        intro other hother piece
        obtain ⟨piece', hpiece'⟩ := hends other hother
        constructor
        · intro h
          rwa [h.unique (hbefore other hother piece' hpiece').2]
        · intro h
          exact (hbefore other hother piece h).2
      obtain ⟨final, hfinal, hnone⟩ := ih result hothers
        (fun other hother => (hends other hother).imp fun piece => (hsame other hother piece).2)
        (fun other hother => (hsettles.before_iff _ (hless other hother)).2 (hdue other hother))
        hmembers
      refine ⟨final, ?_, ?_⟩
      · rw [applyInsertions, hmember, hresult]
        exact hfinal
      have hleft := hsettles.forall_isDue_iff (fun place => ∃ other ∈ others, other.offset = place)
        (by
          rintro _ ⟨other, hother, rfl⟩
          exact hless other hother)
      have hpieces : (∀ other ∈ others, ∀ piece, IsEnd (mask result) other.offset piece →
            finishesClass (trimEnd piece) = true) ↔
          ∀ other ∈ others, ∀ piece, IsEnd (mask text) other.offset piece →
            finishesClass (trimEnd piece) = true :=
        forall₂_congr fun other hother => forall_congr' fun piece => by
          rw [hsame other hother piece]
      have hpiece : (∀ piece, IsEnd (mask text) insertion.offset piece →
          finishesClass (trimEnd piece) = true) ↔ finishesClass (trimEnd rest) = true :=
        ⟨fun h => h rest hrest, fun h piece hpiece => by rwa [hpiece.unique hrest]⟩
      have hplaces : ∀ place, (∃ other ∈ insertion :: others, other.offset = place) ↔
          insertion.offset = place ∨ ∃ other ∈ others, other.offset = place := by
        simp
      simp only [hnone, hpieces, hleft, List.forall_mem_cons, hpiece, hplaces]
      rw [and_assoc, and_left_comm]

/-! ### The second completion -/

section Planned

variable {text indent : String}

/-- The closing brace of a class that can be completed is an end of the masked text. -/
theorem isEnd_unfinished (found : ClassOutline) (hfound : found ∈ outline text)
    (hfixable : isFixable indent found = true) (offset : Nat)
    (hclose : found.bodyClose = some offset) :
    IsEnd (mask text.toList) offset (unfinished (found.inside (mask text.toList))) := by
  obtain ⟨front, inside, behind, hbody⟩ :=
    exists_hasBody_of_isFixable indent text found hfound hfixable
  rw [hbody.inside_eq]
  obtain ⟨more, stop, hstop, hmasked, hclose'⟩ := hbody.exists_stop
  refine ⟨more, stop, behind, hmasked, hstop, ?_, Option.some.inj (hclose'.symm.trans hclose)⟩
  intro c hc
  exact not_isStop_of_mem_segmentAfter 0 0 [] inside hbody.depth_eq (by simp) c
    (List.mem_reverse.1 hc)

/-- The planned insertions are where classes that can be completed close. -/
theorem isDue_iff (place : Nat) : IsDue indent (outline text) place ↔
    ∃ insertion ∈ descending (plannedInsertions { indent } text), insertion.offset = place := by
  constructor
  · rintro ⟨found, hfound, hfixable, hclose⟩
    obtain ⟨insertion, hinsertion⟩ := exists_insertion?_of_isFixable indent found hfixable
    refine ⟨insertion, ?_, ?_⟩
    · exact mem_descending_plannedInsertions_iff.2
        ⟨found, (mem_plannedClasses_iff found).2 ⟨hfound, hfixable⟩, hinsertion⟩
    · obtain ⟨hclose', -, -⟩ := insertion?_eq_some _ _ _ hinsertion
      exact Option.some.inj (hclose'.symm.trans hclose)
  · rintro ⟨insertion, hinsertion, rfl⟩
    obtain ⟨found, hfound, hfixable, hsome⟩ := exists_fixable_of_mem_descending _ hinsertion
    exact ⟨found, hfound, hfixable, (insertion?_eq_some _ _ _ hsome).1⟩

/-- A completion finds nothing to complete exactly if no class that can be completed closes
anywhere. -/
theorem completes_nothing_iff :
    (∃ completion, complete text { indent } = .ok completion ∧ completion.completed = []) ↔
      ∀ place, ¬ IsDue indent (outline text) place := by
  have hnone : (∀ place, ¬ IsDue indent (outline text) place) ↔
      descending (plannedInsertions { indent } text) = [] := by
    simp only [isDue_iff, not_exists, not_and, List.eq_nil_iff_forall_not_mem]
    exact ⟨fun h insertion hmem => h _ insertion hmem rfl,
      fun h _ insertion hmem => absurd hmem (h insertion)⟩
  rw [hnone]
  constructor
  · rintro ⟨completion, hcomplete, hcompleted⟩
    unfold complete at hcomplete
    dsimp only at hcomplete
    split at hcomplete
    · cases hcomplete
    · cases hcomplete
      simpa [plannedInsertions] using hcompleted
  · intro hplanned
    have hcomplete := complete_eq_ok text { indent } text.toList (by rw [hplanned]; rfl)
    exact ⟨_, hcomplete, by rw [hplanned]; rfl⟩

end Planned

/-- A text is completed, and the second completion finds nothing to complete exactly if an override
behind what each completed class ends with is read as one and gives no class a body that can be
described. -/
theorem complete_twice_iff (text indent : String)
    (hindent : ∀ c ∈ indent.toList, isIndentChar c = true)
    (hbodies : (plannedClasses { indent } text).Pairwise fun a b => a.bodyOpen ≠ b.bodyOpen) :
    ∃ first, complete text { indent } = .ok first ∧
      ((∃ second, complete first.text { indent } = .ok second ∧ second.completed = []) ↔
        ∀ found ∈ plannedClasses { indent } text,
          finishesClass (trimEnd (unfinished (found.inside (mask text.toList)))) = true) := by
  have hoffsets : ((plannedInsertions { indent } text).map Insertion.offset).Nodup := by
    rw [nodup_plannedOffsets_iff, pairwise_bodyClose_iff]
    exact hbodies
  have hends : ∀ insertion ∈ descending (plannedInsertions { indent } text),
      ∃ rest, IsEnd (mask text.toList) insertion.offset rest := by
    intro insertion hinsertion
    obtain ⟨found, hfound, hfixable, hsome⟩ := exists_fixable_of_mem_descending _ hinsertion
    exact ⟨_, isEnd_unfinished found hfound hfixable _ (insertion?_eq_some _ _ _ hsome).1⟩
  obtain ⟨result, hresult, hnone⟩ := exists_applyInsertions_ends indent indent.toList text.toList _
    hindent (descending_pairwise _ hoffsets) hends
    (fun insertion hinsertion => isDue_iff _ |>.2 ⟨insertion, hinsertion, rfl⟩)
    exists_csharpLines_of_mem_descending
  refine ⟨_, complete_eq_ok text { indent } result hresult, ?_⟩
  have hdue : ∀ place, IsDue indent (outlineChars text.toList) place →
      ∃ insertion ∈ descending (plannedInsertions { indent } text), insertion.offset = place :=
    fun place => (isDue_iff place).1
  rw [completes_nothing_iff, outline, String.toList_ofList, hnone, and_iff_left hdue]
  constructor
  · intro h found hfound
    obtain ⟨hmem, hfixable⟩ := (mem_plannedClasses_iff found).1 hfound
    obtain ⟨insertion, hinsertion⟩ := exists_insertion?_of_isFixable indent found hfixable
    have hplanned : insertion ∈ descending (plannedInsertions { indent } text) :=
      mem_descending_plannedInsertions_iff.2 ⟨found, hfound, hinsertion⟩
    exact h insertion hplanned _
      (isEnd_unfinished found hmem hfixable _ (insertion?_eq_some _ _ _ hinsertion).1)
  · intro h insertion hinsertion rest hrest
    obtain ⟨found, hfound, hfixable, hsome⟩ := exists_fixable_of_mem_descending _ hinsertion
    have hend := isEnd_unfinished found hfound hfixable _ (insertion?_eq_some _ _ _ hsome).1
    rw [hrest.unique hend]
    exact h found ((mem_plannedClasses_iff found).2 ⟨hfound, hfixable⟩)

/-- Two classes whose last members are not finished: a field, and a class without a name. -/
def openMembers : String :=
  "class A \x7b\r\n\tint x // \x7d\r\n\x7d\r\nclass B \x7b public class \x7d"

theorem complete_twice_openMembers :
    (∀ c ∈ "\t".toList, isIndentChar c = true) ∧
      ((plannedClasses { indent := "\t" } openMembers).Pairwise fun a b =>
        a.bodyOpen ≠ b.bodyOpen) ∧
      (plannedClasses { indent := "\t" } openMembers).map ClassOutline.name = ["A", "B"] ∧
      ∃ first, complete openMembers { indent := "\t" } = .ok first ∧
        ∃ second, complete first.text { indent := "\t" } = .ok second ∧ second.completed = [] := by
  have hindent : ∀ c ∈ "\t".toList, isIndentChar c = true := by decide
  have hbodies : (plannedClasses { indent := "\t" } openMembers).Pairwise fun a b =>
      a.bodyOpen ≠ b.bodyOpen := by
    decide +kernel
  have hfinishes : ∀ found ∈ plannedClasses { indent := "\t" } openMembers,
      finishesClass (trimEnd (unfinished (found.inside (mask openMembers.toList)))) = true := by
    decide +kernel
  obtain ⟨first, hfirst, hsecond⟩ := complete_twice_iff openMembers "\t" hindent hbodies
  exact ⟨hindent, hbodies, by decide +kernel, first, hfirst, hsecond.2 hfinishes⟩

/-- A class whose last field lacks its semicolon. -/
def openField : String := "class A \x7b\n    int x = 5\n\x7d\n"

/-- The class with an override behind the field. -/
def openFieldOnce : String :=
  "class A \x7b\n    int x = 5\n\n    public override string ToString()\n    \x7b\n" ++
    "        var result = new System.Text.StringBuilder();\n" ++
    "        return result.ToString();\n    \x7d\n\x7d\n"

/-- The override behind the field is read as part of the field's value, so the class is completed
again. -/
theorem complete_twice_openField :
    complete openField {} = .ok { text := openFieldOnce, completed := ["A"], skipped := [] } ∧
      (complete openFieldOnce {}).toOption.map Completion.completed = some ["A"] := by
  decide +kernel

end RecordText.Edit
