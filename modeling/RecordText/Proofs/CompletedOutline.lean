import RecordText.Proofs.OverrideText

/-!
# Outlines of completed text

An override that takes the place of the blanks in front of a closing brace
changes the outline of a masked text in one way only: the classes that the brace
closes now override `ToString`. All other offsets move with the text, and names
and properties stay.

If an unfinished piece stands in front of the blanks, the signature of the
override is read together with that piece, and a header in the piece takes the
block of the override for its body. The classes before and behind still only
move.
-/

namespace RecordText.Source

open RecordText.Text

/-- The classes of a masked text. -/
def outlineMasked (masked : List Char) : List ClassOutline :=
  (headers [] 0 masked).map Header.outline

/-- Where an offset moves when `added` bytes take the place of the `removed` bytes in front of
`place`; offsets before them stay. -/
def movedOffset (place removed added offset : Nat) : Nat :=
  if offset < place then offset else offset - removed + added

/-- A class after `added` bytes, an override, have taken the place of the `removed` bytes in front
of the closing brace at `place`. -/
def ClassOutline.completedAt (place removed added : Nat) (found : ClassOutline) : ClassOutline :=
  { found with
    keywordOffset := movedOffset place removed added found.keywordOffset
    bodyOpen := found.bodyOpen.map (movedOffset place removed added)
    bodyClose := found.bodyClose.map (movedOffset place removed added)
    hasToString := found.hasToString || found.bodyClose == some place }

/-- A class after `added` bytes have taken the place of the `removed` bytes in front of the closing
brace at `place`, where `isOverride` tells whether they are read as an override. -/
def ClassOutline.filledAt (place removed added : Nat) (isOverride : Bool) (found : ClassOutline) :
    ClassOutline :=
  { found with
    keywordOffset := movedOffset place removed added found.keywordOffset
    bodyOpen := found.bodyOpen.map (movedOffset place removed added)
    bodyClose := found.bodyClose.map (movedOffset place removed added)
    hasToString := found.hasToString || (isOverride && found.bodyClose == some place) }

/-- A class whose text stands further behind. -/
def ClassOutline.shift (bytes : Nat) (found : ClassOutline) : ClassOutline :=
  { found with
    keywordOffset := found.keywordOffset + bytes
    bodyOpen := found.bodyOpen.map (· + bytes)
    bodyClose := found.bodyClose.map (· + bytes) }

/-- The class with a given body. -/
def ClassOutline.ofBody (name : List Char) (keywordOffset bodyOpen : Nat) (body : Body) :
    ClassOutline :=
  { name := String.ofList name, keywordOffset, bodyOpen := some bodyOpen, bodyClose := body.close
    properties := Source.properties (body.segments.filterMap Segment.declared?)
    hasToString := (body.segments.filterMap Segment.declared?).contains .toStringOverride }

/-- The class of a header without a body. -/
def ClassOutline.bodiless (name : List Char) (keywordOffset : Nat) : ClassOutline :=
  { name := String.ofList name, keywordOffset, bodyOpen := none, bodyClose := none
    properties := [], hasToString := false }

theorem Header.outline_of_none (header : Header)
    (h : findOpen? header.endOffset header.rest = none) :
    header.outline = .bodiless header.name header.keywordOffset := by
  simp only [Header.outline, h, ClassOutline.bodiless]

theorem Header.outline_of_some (header : Header) (bodyOpen : Nat) (inside : List Char)
    (h : findOpen? header.endOffset header.rest = some (bodyOpen, inside)) :
    header.outline =
      .ofBody header.name header.keywordOffset bodyOpen (walk 0 [] (bodyOpen + 1) inside) := by
  simp only [Header.outline, h, ClassOutline.ofBody]

theorem Header.outline_name (header : Header) :
    header.outline.name = String.ofList header.name := by
  unfold Header.outline
  split <;> rfl

/-- A class moves with its header. -/
theorem Header.outline_shift (bytes : Nat) (header : Header) :
    (header.shift bytes).outline = header.outline.shift bytes := by
  cases hopen : findOpen? header.endOffset header.rest with
  | none =>
      have hopen' : findOpen? (header.shift bytes).endOffset (header.shift bytes).rest = none := by
        simp only [Header.shift, findOpen?_shift, hopen, Option.map_none]
      rw [Header.outline_of_none _ hopen, Header.outline_of_none _ hopen']
      rfl
  | some found =>
      have hopen' : findOpen? (header.shift bytes).endOffset (header.shift bytes).rest =
          some (found.1 + bytes, found.2) := by
        simp only [Header.shift, findOpen?_shift, hopen, Option.map_some]
      rw [Header.outline_of_some _ _ _ hopen, Header.outline_of_some _ _ _ hopen',
        Nat.add_right_comm, walk_shift]
      rfl

theorem movedOffset_of_lt {place removed added offset : Nat} (h : offset < place) :
    movedOffset place removed added offset = offset :=
  if_pos h

theorem movedOffset_of_le {place removed added offset : Nat} (h : place ≤ offset) :
    movedOffset place removed added offset = offset - removed + added :=
  if_neg (Nat.not_lt.2 h)

/-- The classes behind the closing brace move with it. -/
theorem Header.outline_shift_filledAt (header : Header) (size removed added : Nat)
    (isOverride : Bool) :
    (header.shift (size + added + 1)).outline =
      (header.shift (size + removed + 1)).outline.filledAt (size + removed) removed added
        isOverride := by
  have hmoved : ∀ offset, movedOffset (size + removed) removed added
      (offset + (size + removed + 1)) = offset + (size + added + 1) := by
    intro offset
    rw [movedOffset_of_le (by omega)]
    omega
  have hcomp : movedOffset (size + removed) removed added ∘ (· + (size + removed + 1)) =
      (· + (size + added + 1)) := funext hmoved
  have hclose : ((header.outline.shift (size + removed + 1)).bodyClose ==
      some (size + removed)) = false := by
    cases hcase : header.outline.bodyClose with
    | none => simp [ClassOutline.shift, hcase]
    | some close =>
        simp only [ClassOutline.shift, hcase, Option.map_some, beq_eq_false_iff_ne, ne_eq,
          Option.some.injEq]
        omega
  rw [Header.outline_shift, Header.outline_shift, ClassOutline.filledAt, hclose]
  simp only [ClassOutline.shift, Option.map_map, Bool.and_false, Bool.or_false, hmoved, hcomp]

/-- Nothing is unfinished behind a stop at depth zero. -/
theorem segmentAfter_stop (depth : Nat) (segment inside : List Char) (stop : Char)
    (hstop : isStop stop = true) (h : depthAfter depth (inside ++ [stop]) = some 0) :
    segmentAfter depth segment (inside ++ [stop]) = [] := by
  induction inside generalizing depth segment with
  | nil =>
      simp only [isStop, Bool.or_eq_true, beq_iff_eq] at hstop
      rcases hstop with (rfl | rfl) | rfl
      · simp
      · cases depth with
        | zero => simp at h
        | succ inner => simp
      · obtain rfl : depth = 0 := by
          rw [List.nil_append, depthAfter_other _ _ _ (by decide)] at h
          simpa using h
        simp
  | cons c rest ih =>
      rw [List.cons_append] at h ⊢
      rcases brace_cases c with rfl | rfl | hc
      · rw [depthAfter_open] at h
        rw [segmentAfter_open]
        exact ih _ _ h
      · cases depth with
        | zero => simp at h
        | succ inner =>
            rw [depthAfter_close_succ] at h
            rw [segmentAfter_close_succ]
            exact ih _ _ h
      · rw [depthAfter_other _ _ _ hc] at h
        cases depth with
        | zero =>
            by_cases hend : c = ';'
            · subst hend
              rw [segmentAfter_zero_semicolon]
              exact ih _ _ h
            · rw [segmentAfter_zero_other _ _ c hc hend]
              exact ih _ _ h
        | succ inner =>
            rw [segmentAfter_succ_other _ _ inner c hc]
            exact ih _ _ h

theorem walk_succ_segment (inner : Nat) (segment : List Char) (offset : Nat) (text : List Char) :
    walk (inner + 1) segment offset text = walk (inner + 1) [] offset text := by
  cases text with
  | nil => simp
  | cons c rest =>
      rcases brace_cases c with rfl | rfl | hc
      · simp
      · simp
      · rw [walk_succ_other _ _ _ inner c hc, walk_succ_other _ _ _ inner c hc]

section ClosingBrace

variable (place removed added : Nat) (isOverride : Bool) (name : List Char)
  (keywordOffset bodyOpen : Nat)

/-- A class whose body only moves its closing brace. -/
theorem ofBody_filledAt_of_moved (body body' : Body) (hkeyword : keywordOffset < place)
    (hopen : bodyOpen < place) (hplace : body.close ≠ some place)
    (hclose : body'.close = body.close.map (movedOffset place removed added))
    (hsegments : body'.segments = body.segments) :
    ClassOutline.ofBody name keywordOffset bodyOpen body' =
      (ClassOutline.ofBody name keywordOffset bodyOpen body).filledAt place removed added
        isOverride := by
  have hplace' : (body.close == some place) = false := by simpa using hplace
  simp only [ClassOutline.ofBody, ClassOutline.filledAt, movedOffset_of_lt hkeyword,
    Option.map_some, movedOffset_of_lt hopen, hclose, hsegments, hplace', Bool.and_false,
    Bool.or_false]

/-- A class whose body closes at the brace and gets a last segment that is an override or
nothing. -/
theorem ofBody_filledAt_of_closing (body body' : Body) (segment : Segment)
    (hkeyword : keywordOffset < place) (hopen : bodyOpen < place)
    (hplace : body.close = some place)
    (hclose : body'.close = some (movedOffset place removed added place))
    (hsegments : body'.segments = body.segments ++ [segment])
    (hsegment : segment.declared? = if isOverride then some .toStringOverride else none) :
    ClassOutline.ofBody name keywordOffset bodyOpen body' =
      (ClassOutline.ofBody name keywordOffset bodyOpen body).filledAt place removed added
        isOverride := by
  have hdeclared : body'.segments.filterMap Segment.declared? =
      body.segments.filterMap Segment.declared? ++
        (if isOverride then some .toStringOverride else none : Option Declared).toList := by
    rw [hsegments, List.filterMap_append, ← hsegment]
    cases hcase : segment.declared? <;> simp [hcase]
  have hproperties : properties (body'.segments.filterMap Segment.declared?) =
      properties (body.segments.filterMap Segment.declared?) := by
    rw [hdeclared, properties, List.filterMap_append]
    cases isOverride <;> exact List.append_nil _
  have hcontains : (body'.segments.filterMap Segment.declared?).contains .toStringOverride =
      ((body.segments.filterMap Segment.declared?).contains .toStringOverride || isOverride) := by
    rw [hdeclared]
    cases isOverride <;> simp
  simp only [ClassOutline.ofBody, ClassOutline.filledAt, movedOffset_of_lt hkeyword,
    Option.map_some, movedOffset_of_lt hopen, hclose, hplace, hproperties, hcontains,
    beq_self_eq_true, Bool.and_true]

end ClosingBrace

section Piece

variable (stop : Char) (hstop : isStop stop = true) (piece blanks behind : List Char)
  (hpiece : ∀ c ∈ piece, isStop c = false) (hblanks : ∀ c ∈ blanks, isBlank c = true)
  (override : OverrideText) (isOverride : Bool)
  (hdeclared : Segment.declared? { text := piece ++ override.head, terminator := .brace } =
    if isOverride then some .toStringOverride else none)

include hstop hpiece hblanks hdeclared

/-- A class whose body opens before the closing brace. -/
theorem ofBody_filledAt (name : List Char) (keywordOffset bodyOpen : Nat) (inside : List Char)
    (hkeyword : keywordOffset < bodyOpen + 1)
    (hinside : inside = [] ∨ ∃ more, inside = more ++ [stop]) :
    ClassOutline.ofBody name keywordOffset bodyOpen
        (walk 0 [] (bodyOpen + 1) (inside ++ (piece ++ (override.text ++ '\x7d' :: behind)))) =
      (ClassOutline.ofBody name keywordOffset bodyOpen
        (walk 0 [] (bodyOpen + 1) (inside ++ (piece ++ (blanks ++ '\x7d' :: behind))))).filledAt
          (bodyOpen + 1 + byteLength inside + byteLength piece + byteLength blanks)
          (byteLength blanks) (byteLength override.text) isOverride := by
  have hopen : bodyOpen <
      bodyOpen + 1 + byteLength inside + byteLength piece + byteLength blanks := by omega
  have hkeyword' : keywordOffset <
      bodyOpen + 1 + byteLength inside + byteLength piece + byteLength blanks := by omega
  have hstops : ∀ c ∈ blanks, isStop c = false :=
    fun c hc => not_isStop_of_isBlank c (hblanks c hc)
  match hdepth : depthAfter 0 inside with
  | none =>
      obtain ⟨block, rest, rfl, hblock⟩ := exists_close_of_depthAfter_eq_none 0 inside hdepth
      rw [walk_append_of_closed 0 [] _ _ _ hdepth, walk_append_of_closed 0 [] _ _ _ hdepth,
        walk_close 0 [] _ block rest hblock]
      have hclose : bodyOpen + 1 + byteLength block < bodyOpen + 1 +
          byteLength (block ++ '\x7d' :: rest) + byteLength piece + byteLength blanks := by
        simp only [byteLength_append, byteLength, utf8Size_close]
        omega
      apply ofBody_filledAt_of_moved _ _ _ _ _ _ _ _ _ hkeyword' hopen
      · simpa using Nat.ne_of_lt hclose
      · simp only [Option.map_some, movedOffset_of_lt hclose]
      · rfl
  | some 0 =>
      have hsegment : segmentAfter 0 [] inside = [] := by
        rcases hinside with rfl | ⟨more, rfl⟩
        · rfl
        · exact segmentAfter_stop 0 [] more stop hstop hdepth
      rw [walk_append 0 0 [] _ inside _ hdepth, walk_append 0 0 [] _ inside _ hdepth, hsegment,
        walk_zero_piece _ _ _ _ hpiece, walk_zero_piece _ _ _ _ hpiece, override.walk_text,
        walk_zero_piece _ _ _ _ hstops, walk_zero_close]
      apply ofBody_filledAt_of_closing _ _ _ _ _ _ _ _ _
        { text := piece ++ override.head, terminator := .brace } hkeyword' hopen rfl
      · rw [movedOffset_of_le (Nat.le_refl _)]
        simp only [Body.prepend_close, Option.some.injEq]
        omega
      · simp only [Body.prepend_segments, List.append_nil, List.reverse_reverse]
      · exact hdeclared
  | some (inner + 1) =>
      rw [walk_append 0 _ [] _ inside _ hdepth, walk_append 0 _ [] _ inside _ hdepth,
        walk_succ_segment, walk_succ_segment _ _ _ (piece ++ (blanks ++ _)),
        walk_inner_append inner inner _ _ _ (depthAfter_of_not_isStop inner piece hpiece),
        walk_inner_append inner inner _ _ _ (depthAfter_of_not_isStop inner piece hpiece),
        walk_inner_append inner inner _ _ _ (override.depthAfter_text inner),
        walk_inner_append inner inner _ _ _ (depthAfter_of_not_isStop inner blanks hstops),
        walk_succ_close, walk_succ_close]
      have hshift := fun bytes => walk_shift inner [] 0 bytes behind
      simp only [Nat.zero_add] at hshift
      rw [hshift (_ + byteLength override.text + 1), hshift (_ + byteLength blanks + 1)]
      apply ofBody_filledAt_of_moved _ _ _ _ _ _ _ _ _ hkeyword' hopen
      · simp only [Body.prepend_close, Body.shift, ne_eq, Option.map_eq_some_iff, not_exists,
          not_and]
        intro close _
        omega
      · simp only [Body.prepend_close, Body.shift, Option.map_map]
        congr 1
        funext close
        simp only [Function.comp]
        rw [movedOffset_of_le (by omega)]
        omega
      · rfl

/-- A class whose header stands before the closing brace. -/
theorem Header.outline_extend_filledAt (front : List Char) (header : Header)
    (h : header ∈ headers [] 0 (front ++ [stop])) :
    (header.extend (piece ++ (override.text ++ '\x7d' :: behind))).outline =
      (header.extend (piece ++ (blanks ++ '\x7d' :: behind))).outline.filledAt
        (byteLength (front ++ [stop]) + byteLength piece + byteLength blanks) (byteLength blanks)
        (byteLength override.text) isOverride := by
  obtain ⟨more, hrest⟩ := exists_rest_of_mem_headers [] 0 front stop hstop header h
  obtain ⟨passed, hfront, hend, hkeyword⟩ := exists_front_of_mem_headers [] 0 _ header h
  have hopen : ∀ text, findOpen? header.endOffset (header.rest ++ text) =
      (findOpen? header.endOffset header.rest).map fun found => (found.1, found.2 ++ text) := by
    intro text
    rw [hrest, List.append_assoc, List.singleton_append,
      findOpen?_append header.endOffset more text stop hstop]
  cases hfind : findOpen? header.endOffset header.rest with
  | none =>
      have hnone : ∀ text, findOpen? (header.extend text).endOffset (header.extend text).rest =
          none := by
        intro text
        simp only [Header.extend, hopen, hfind, Option.map_none]
      rw [Header.outline_of_none _ (hnone _), Header.outline_of_none _ (hnone _)]
      have hlt : header.keywordOffset <
          byteLength (front ++ [stop]) + byteLength piece + byteLength blanks := by
        rw [hfront, byteLength_append]
        omega
      simp only [ClassOutline.bodiless, ClassOutline.filledAt, Header.extend,
        movedOffset_of_lt hlt, Option.map_none]
      simp
  | some found =>
      obtain ⟨bodyOpen, inside⟩ := found
      have hsome : ∀ text, findOpen? (header.extend text).endOffset (header.extend text).rest =
          some (bodyOpen, inside ++ text) := by
        intro text
        simp only [Header.extend, hopen, hfind, Option.map_some]
      rw [Header.outline_of_some _ _ _ (hsome _), Header.outline_of_some _ _ _ (hsome _)]
      obtain ⟨gap, hgap, -, hbodyOpen⟩ := findOpen?_eq_some _ _ _ _ hfind
      have hsize : byteLength (front ++ [stop]) = bodyOpen + 1 + byteLength inside := by
        rw [hfront, hgap]
        simp only [byteLength_append, byteLength, utf8Size_open]
        omega
      have hlt : header.keywordOffset < bodyOpen + 1 := by omega
      have hinside : inside = [] ∨ ∃ more, inside = more ++ [stop] := by
        obtain hnil | ⟨block, last, hlast⟩ := List.eq_nil_or_concat inside
        · exact Or.inl hnil
        · rw [List.concat_eq_append] at hlast
          rw [hrest, hlast, ← List.cons_append, ← List.append_assoc] at hgap
          obtain ⟨-, hstops⟩ := List.append_inj' hgap rfl
          exact Or.inr ⟨block, by rw [hlast, hstops]⟩
      rw [hsize]
      exact ofBody_filledAt stop hstop piece blanks behind hpiece hblanks override isOverride
        hdeclared header.name header.keywordOffset bodyOpen inside hlt hinside

/-- An override behind an unfinished piece in front of a closing brace: the classes before and
behind the piece move with the text, and those that the brace closes have an override if it is read
there. Only the classes of the piece itself are not the old ones. -/
theorem exists_outlineMasked_piece (front : List Char) : ∃ up down,
    outlineMasked (front ++ stop :: (piece ++ (blanks ++ '\x7d' :: behind))) =
      up ++ ((headers (front ++ [stop]).reverse (byteLength (front ++ [stop]))
        (piece ++ blanks ++ ['\x7d'])).map (Header.outline ∘ Header.extend behind) ++ down) ∧
    outlineMasked (front ++ stop :: (piece ++ (override.text ++ '\x7d' :: behind))) =
      up.map (ClassOutline.filledAt
          (byteLength (front ++ [stop]) + byteLength piece + byteLength blanks) (byteLength blanks)
          (byteLength override.text) isOverride) ++
        ((headers (front ++ [stop]).reverse (byteLength (front ++ [stop]))
          (piece ++ (override.head ++ ['\x7b']))).map (Header.outline ∘ Header.extend
            (override.body ++ '\x7d' :: (override.trail ++ '\x7d' :: behind))) ++
        down.map (ClassOutline.filledAt
          (byteLength (front ++ [stop]) + byteLength piece + byteLength blanks) (byteLength blanks)
          (byteLength override.text) isOverride)) := by
  have hbehind : ∀ (before : List Char) (offset : Nat), headers ('\x7d' :: before) offset behind =
      (headers [] 0 behind).map (Header.shift offset) := by
    intro before offset
    have hfar := headers_behind_stop [] before '\x7d' rfl offset behind
    have hshift := headers_shift [] 0 offset behind
    rw [Nat.zero_add] at hshift
    exact hfar.trans hshift
  have hold : piece ++ (blanks ++ '\x7d' :: behind) = piece ++ blanks ++ '\x7d' :: behind := by simp
  have hclosing : ∀ before, (piece ++ blanks ++ ['\x7d']).reverse ++ before =
      '\x7d' :: ((piece ++ blanks).reverse ++ before) := by simp
  have hsize : byteLength (front ++ [stop]) + byteLength (piece ++ blanks ++ ['\x7d']) =
      byteLength (front ++ [stop]) + byteLength piece + byteLength blanks + 1 := by
    simp [byteLength, Nat.add_assoc]
  refine ⟨(headers [] 0 (front ++ [stop])).map fun header =>
      (header.extend (piece ++ (blanks ++ '\x7d' :: behind))).outline,
    (headers [] 0 behind).map fun header => (header.shift
      (byteLength (front ++ [stop]) + byteLength piece + byteLength blanks + 1)).outline, ?_, ?_⟩
  · rw [outlineMasked, headers_append_stop [] 0 front _ stop hstop, List.append_nil, Nat.zero_add,
      hold, headers_append_stop _ _ (piece ++ blanks) behind '\x7d' rfl, hclosing, hbehind, hsize]
    simp only [List.map_append, List.map_map]
    rfl
  · rw [outlineMasked, headers_append_stop [] 0 front _ stop hstop, List.append_nil, Nat.zero_add,
      override.headers_piece_text, hbehind]
    simp only [List.map_append, List.map_map]
    congr 1
    · apply List.map_congr_left
      intro header hheader
      exact Header.outline_extend_filledAt stop hstop piece blanks behind hpiece hblanks override
        isOverride hdeclared front header hheader
    · congr 1
      apply List.map_congr_left
      intro header _
      exact header.outline_shift_filledAt (byteLength (front ++ [stop]) + byteLength piece) _ _ _

end Piece

/-- An override that takes the place of the blanks in front of a closing brace completes the classes
that the brace closes and moves what stands behind it. -/
theorem outlineMasked_override (front : List Char) (stop : Char) (hstop : isStop stop = true)
    (blanks behind : List Char) (hblanks : ∀ c ∈ blanks, isBlank c = true)
    (override : OverrideText) :
    outlineMasked (front ++ stop :: (override.text ++ '\x7d' :: behind)) =
      (outlineMasked (front ++ stop :: (blanks ++ '\x7d' :: behind))).map
        (ClassOutline.completedAt (byteLength (front ++ [stop]) + byteLength blanks)
          (byteLength blanks) (byteLength override.text)) := by
  have hclear : ClearOfHeaders blanks :=
    clearOfHeaders_of_not_mem _ (not_mem_of_isBlank _ _ hblanks (by decide))
  have hdeclared : Segment.declared? { text := [] ++ override.head, terminator := .brace } =
      if true then some .toStringOverride else none :=
    declared?_overrideSignature _ _ override.lead_blank override.gap_blank .brace
  obtain ⟨up, down, hold, hnew⟩ := exists_outlineMasked_piece stop hstop [] blanks behind (by simp)
    hblanks override true hdeclared front
  simp only [List.nil_append, byteLength, Nat.add_zero] at hold hnew
  rw [headers_skip_clear _ _ blanks [] '\x7d' rfl hclear, headers_nil] at hold
  rw [override.headers_head] at hnew
  rw [hold, hnew]
  simp only [List.map_nil, List.nil_append, List.map_append]
  rfl

end RecordText.Source
