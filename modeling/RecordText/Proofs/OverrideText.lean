import RecordText.Proofs.HeaderPlaces
import RecordText.Source.Outline
import Mathlib.Data.List.Chain

/-!
# An override at the end of a class body

A text that holds one override of `ToString` and nothing else leaves the depth
of braces as it is and holds no class header. At the end of a class body it is
one more segment, which is read as an override.
-/

namespace RecordText.Source

open RecordText.Text

/-- No blank stands directly behind the letter `s`, with which the word `class` ends. -/
def ClearOfHeaders (text : List Char) : Prop :=
  List.IsChain (fun c d => c = 's' → isBlank d = false) text

/-- How the declaration of an override starts. -/
def overrideSignature : List Char :=
  "public override string ToString()".toList

/-- Masked text that holds one override of `ToString`: its signature, a block without inner blocks
that declares nothing, and blanks around them. -/
structure OverrideText where
  lead : List Char
  gap : List Char
  body : List Char
  trail : List Char
  lead_blank : ∀ c ∈ lead, isBlank c = true
  gap_blank : ∀ c ∈ gap, isBlank c = true
  trail_blank : ∀ c ∈ trail, isBlank c = true
  body_plain : ∀ c ∈ body, c ≠ '\x7b' ∧ c ≠ '\x7d'
  body_clear : ClearOfHeaders body
  body_silent : ∀ offset, (walk 0 [] offset body).segments.filterMap Segment.declared? = []

/-- The signature of an override with the blanks around it. -/
def OverrideText.head (override : OverrideText) : List Char :=
  override.lead ++ overrideSignature ++ override.gap

/-- The masked text of an override. -/
def OverrideText.text (override : OverrideText) : List Char :=
  override.head ++ '\x7b' :: (override.body ++ '\x7d' :: override.trail)

theorem not_brace_of_isBlank (c : Char) (h : isBlank c = true) : c ≠ '\x7b' ∧ c ≠ '\x7d' :=
  ⟨ne_of_isBlank c _ h (by decide), ne_of_isBlank c _ h (by decide)⟩

/-- A piece without braces and semicolons becomes part of the current segment. -/
theorem walk_zero_piece (segment : List Char) (offset : Nat) (piece rest : List Char)
    (h : ∀ c ∈ piece, isStop c = false) :
    walk 0 segment offset (piece ++ rest) =
      walk 0 (piece.reverse ++ segment) (offset + byteLength piece) rest := by
  induction piece generalizing segment offset with
  | nil => rfl
  | cons c piece ih =>
      have hc := h c (by simp)
      simp only [isStop, Bool.or_eq_false_iff, beq_eq_false_iff_ne] at hc
      rw [List.cons_append, walk_zero_other _ _ _ c hc.1 hc.2,
        ih _ _ fun d hd => h d (by simp [hd])]
      simp [byteLength, Nat.add_assoc]

theorem not_isStop_of_isBlank (c : Char) (h : isBlank c = true) : isStop c = false := by
  by_contra hstop
  rw [not_isBlank_of_isStop c (by simpa using hstop)] at h
  cases h

theorem not_isStop_overrideSignature : ∀ c ∈ overrideSignature, isStop c = false := by
  decide +kernel

/-- Two clear texts can be joined unless a blank comes behind the letter `s`. -/
theorem ClearOfHeaders.append {front back : List Char} (hfront : ClearOfHeaders front)
    (hback : ClearOfHeaders back)
    (hjoin : 's' ∉ front.getLast? ∨ ∀ c ∈ back.head?, isBlank c = false) :
    ClearOfHeaders (front ++ back) := by
  refine List.isChain_append.2 ⟨hfront, hback, ?_⟩
  rintro c hc d hd rfl
  rcases hjoin with hlast | hhead
  · exact absurd hc hlast
  · exact hhead d hd

theorem clearOfHeaders_of_not_mem (text : List Char) (h : 's' ∉ text) : ClearOfHeaders text := by
  induction text with
  | nil => exact List.IsChain.nil
  | cons c rest ih =>
      rw [List.mem_cons, not_or] at h
      have hrest : ClearOfHeaders rest := ih h.2
      cases rest with
      | nil => exact List.IsChain.singleton c
      | cons d rest => exact List.isChain_cons_cons.2 ⟨fun hc => absurd hc.symm h.1, hrest⟩

/-- No header starts in a clear text in front of a stop. -/
theorem readHeader?_eq_none_of_clear (text rest : List Char) (c : Char) (hc : isStop c = true)
    (hclear : ClearOfHeaders text) : readHeader? (text ++ c :: rest) = none := by
  by_contra hsome
  obtain ⟨found, hfound⟩ := Option.ne_none_iff_exists'.1 hsome
  obtain ⟨htext, hform⟩ := (readHeader?_eq_some_iff _ found).1 hfound
  have hmem : c ∉ found.text := by
    intro hmem
    rw [not_isStop_of_mem_text found hform c hmem] at hc
    cases hc
  obtain ⟨more, rfl, -⟩ := append_eq_append_of_not_mem htext.symm hmem
  obtain ⟨blank, gap, hgap⟩ := List.exists_cons_of_ne_nil hform.gap_ne_nil
  have hblank : isBlank blank = true := hform.gap_blank blank (by simp [hgap])
  simp [ClearOfHeaders, HeaderMatch.text, classWord, hgap, hblank] at hclear

/-- A clear text in front of a stop is passed over in the search for headers. -/
theorem headers_skip_clear (before : List Char) (offset : Nat) (piece rest : List Char) (c : Char)
    (hc : isStop c = true) (hclear : ClearOfHeaders piece) :
    headers before offset (piece ++ c :: rest) =
      headers (c :: (piece.reverse ++ before)) (offset + byteLength piece + c.utf8Size) rest := by
  rw [headers_skip before offset piece (c :: rest)]
  · exact headers_cons_of_none _ _ _ _ (headerAt?_eq_none_of_ne _ c rest (ne_of_isStop c hc))
  · rintro front back rfl -
    have hback : ClearOfHeaders back := hclear.right_of_append
    unfold headerAt?
    rw [readHeader?_eq_none_of_clear back rest c hc hback]
    split <;> rfl

theorem not_mem_of_isBlank (text : List Char) (c : Char) (h : ∀ d ∈ text, isBlank d = true)
    (hc : isBlank c = false) : c ∉ text := by
  intro hmem
  rw [h c hmem] at hc
  cases hc

/-- The end of a declaration drops its blanks. -/
theorem trimEnd_append_blanks (text blanks : List Char) (hblanks : ∀ c ∈ blanks, isBlank c = true)
    (hlast : ∀ c ∈ text.getLast?, isBlank c = false) : trimEnd (text ++ blanks) = text := by
  have hrev : ∀ c ∈ blanks.reverse, isBlank c = true := fun c hc => hblanks c (by simpa using hc)
  rw [trimEnd, List.reverse_append, List.dropWhile_append_of_pos hrev]
  have hhead : ∀ c ∈ text.reverse.head?, isBlank c = false := by simpa using hlast
  have hdrop := (takeWhile_dropWhile_of_stop (p := isBlank) [] text.reverse (by simp) hhead).2
  rw [List.nil_append] at hdrop
  rw [hdrop, List.reverse_reverse]

/-- Blanks at the front end where they did, whatever stands behind. -/
theorem trimStart_append_of_cons (text more rest : List Char) (c : Char)
    (h : trimStart text = c :: rest) : trimStart (text ++ more) = c :: (rest ++ more) := by
  rw [trimStart, List.dropWhile_append, ← trimStart, h]
  rfl

theorem skipAttributes_of_closed (text inside rest : List Char)
    (hopen : trimStart text = '[' :: inside) (hclose : afterBracket? inside = some rest) :
    skipAttributes text = skipAttributes rest := by
  rw [skipAttributes]
  split
  · rename_i inside' hopen'
    obtain rfl := (List.cons.inj (hopen.symm.trans hopen')).2
    split
    · rename_i rest' hclose'
      obtain rfl := Option.some.inj (hclose.symm.trans hclose')
      rfl
    · rename_i hclose'
      rw [hclose] at hclose'
      cases hclose'
  · rename_i hne
    exact absurd hopen (hne inside)

theorem skipAttributes_of_unclosed (text inside : List Char)
    (hopen : trimStart text = '[' :: inside) (hclose : afterBracket? inside = none) :
    skipAttributes text = '[' :: inside := by
  rw [skipAttributes]
  split
  · rename_i inside' hopen'
    obtain rfl := (List.cons.inj (hopen.symm.trans hopen')).2
    split
    · rename_i rest' hclose'
      rw [hclose] at hclose'
      cases hclose'
    · rfl
  · exact hopen

theorem skipAttributes_of_ne (text : List Char) (h : ∀ inside, trimStart text ≠ '[' :: inside) :
    skipAttributes text = trimStart text := by
  rw [skipAttributes]
  split
  · rename_i inside hopen
    exact absurd hopen (h inside)
  · rfl

/-- Blanks in front of a declaration without attributes are dropped. -/
theorem skipAttributes_append_blanks (blanks : List Char) (c : Char) (rest : List Char)
    (hblanks : ∀ d ∈ blanks, isBlank d = true) (hc : isBlank c = false) (hbracket : c ≠ '[') :
    skipAttributes (blanks ++ c :: rest) = c :: rest := by
  have htrim : trimStart (blanks ++ c :: rest) = c :: rest :=
    (takeWhile_dropWhile_of_stop blanks (c :: rest) hblanks (by simpa using hc)).2
  rw [skipAttributes_of_ne _ (by simp [htrim, hbracket]), htrim]

/-- The signature between blanks declares an override of `ToString`. -/
theorem declared?_overrideSignature (lead gap : List Char)
    (hlead : ∀ c ∈ lead, isBlank c = true) (hgap : ∀ c ∈ gap, isBlank c = true)
    (terminator : Terminator) :
    Segment.declared? { text := lead ++ overrideSignature ++ gap, terminator } =
      some .toStringOverride := by
  have hstart : overrideSignature = 'p' :: overrideSignature.tail := by decide
  have hskip : skipAttributes (lead ++ overrideSignature ++ gap) = overrideSignature ++ gap := by
    rw [List.append_assoc, hstart, List.cons_append]
    exact skipAttributes_append_blanks lead 'p' _ hlead (by decide) (by decide)
  have htrim : trimEnd (overrideSignature ++ gap) = overrideSignature :=
    trimEnd_append_blanks _ _ hgap (by decide +kernel)
  have hoverrides : overridesToString overrideSignature = true := by decide +kernel
  have hne : overrideSignature.isEmpty = false := by decide
  simp only [Segment.declared?, hskip, htrim, hne, hoverrides, Bool.false_eq_true, if_false,
    if_true]

namespace OverrideText

variable (override : OverrideText)

theorem not_isStop_head : ∀ c ∈ override.head, isStop c = false := by
  intro c hc
  simp only [head, List.mem_append] at hc
  rcases hc with (hlead | hsignature) | hgap
  · exact not_isStop_of_isBlank c (override.lead_blank c hlead)
  · exact not_isStop_overrideSignature c hsignature
  · exact not_isStop_of_isBlank c (override.gap_blank c hgap)

theorem clear_head : ClearOfHeaders override.head := by
  have hlead : ClearOfHeaders override.lead :=
    clearOfHeaders_of_not_mem _ (not_mem_of_isBlank _ _ override.lead_blank (by decide))
  have hgap : ClearOfHeaders override.gap :=
    clearOfHeaders_of_not_mem _ (not_mem_of_isBlank _ _ override.gap_blank (by decide))
  have hsignature : ClearOfHeaders overrideSignature := by
    unfold ClearOfHeaders
    decide +kernel
  refine (hlead.append hsignature (Or.inr (by decide +kernel))).append hgap (Or.inl ?_)
  have hlast : overrideSignature.getLast? = some ')' := by decide +kernel
  rw [List.getLast?_append, hlast]
  simp

/-- An override leaves the depth of braces as it is. -/
theorem depthAfter_text (depth : Nat) : depthAfter depth override.text = some depth := by
  have hhead : ∀ c ∈ override.head, c ≠ '\x7b' ∧ c ≠ '\x7d' := by
    intro c hc
    have hstop := override.not_isStop_head c hc
    simp only [isStop, Bool.or_eq_false_iff, beq_eq_false_iff_ne] at hstop
    exact hstop.1
  have htrail : ∀ c ∈ override.trail, c ≠ '\x7b' ∧ c ≠ '\x7d' :=
    fun c hc => not_brace_of_isBlank c (override.trail_blank c hc)
  rw [text, depthAfter_append, depthAfter_of_no_braces depth _ hhead]
  simp [depthAfter_append, depthAfter_of_no_braces _ _ override.body_plain,
    depthAfter_of_no_braces _ _ htrail]

/-- At the end of a class body an override ends the current segment, and the body closes behind
it. -/
theorem walk_text (segment : List Char) (offset : Nat) (rest : List Char) :
    walk 0 segment offset (override.text ++ '\x7d' :: rest) =
      { segments := [{ text := segment.reverse ++ override.head, terminator := .brace }],
        close := some (offset + byteLength override.text) } := by
  rw [walk_close 0 segment offset override.text rest (override.depthAfter_text 0)]
  have hsegments : (walk 0 segment offset override.text).segments =
      [{ text := segment.reverse ++ override.head, terminator := .brace }] := by
    rw [text, walk_zero_piece _ _ _ _ override.not_isStop_head, walk_zero_open]
    have hbody := depthAfter_of_no_braces 0 _ override.body_plain
    rw [walk_inner_append 0 0 _ _ _ hbody, walk_succ_close]
    have htrail : ∀ c ∈ override.trail, isStop c = false :=
      fun c hc => not_isStop_of_isBlank c (override.trail_blank c hc)
    have hend := walk_zero_piece [] (offset + byteLength override.head + 1 +
      byteLength override.body + 1) override.trail [] htrail
    rw [List.append_nil, walk_nil] at hend
    rw [hend]
    simp
  rw [hsegments]

/-- The headers of an unfinished piece with an override behind it end in front of the block of the
override. -/
theorem headers_piece_text (before : List Char) (offset : Nat) (piece rest : List Char) :
    headers before offset (piece ++ (override.text ++ '\x7d' :: rest)) =
      (headers before offset (piece ++ (override.head ++ ['\x7b']))).map
          (Header.extend (override.body ++ '\x7d' :: (override.trail ++ '\x7d' :: rest))) ++
        headers ('\x7d' :: ((piece ++ override.text).reverse ++ before))
          (offset + byteLength piece + byteLength override.text + 1) rest := by
  have htrail : ClearOfHeaders override.trail :=
    clearOfHeaders_of_not_mem _ (not_mem_of_isBlank _ _ override.trail_blank (by decide))
  have hsplit : piece ++ (override.text ++ '\x7d' :: rest) = piece ++ override.head ++
      '\x7b' :: (override.body ++ '\x7d' :: (override.trail ++ '\x7d' :: rest)) := by
    simp [text]
  rw [hsplit, headers_append_stop _ _ _ _ '\x7b' rfl,
    headers_skip_clear _ _ _ _ '\x7d' rfl override.body_clear,
    headers_skip_clear _ _ _ _ '\x7d' rfl htrail, List.append_assoc piece]
  congr 2
  · simp [text]
  · simp only [text, byteLength_append, byteLength, utf8Size_open, utf8Size_close]
    omega

/-- No header stands in the signature of an override. -/
theorem headers_head (before : List Char) (offset : Nat) :
    headers before offset (override.head ++ ['\x7b']) = [] := by
  rw [headers_skip_clear _ _ _ _ '\x7b' rfl override.clear_head, headers_nil]

end OverrideText

end RecordText.Source
