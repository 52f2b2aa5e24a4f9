import RecordText.Proofs.ClassBodies
import RecordText.Proofs.Masking
import RecordText.Proofs.Utf8Bytes

/-!
# Finished classes

What an outline shows of a class whose body is closed does not depend on the
text behind the closing brace. At such a brace the text is code, so the tokens
before it are the same whatever follows, and no header, search for an opening
brace or walk through a body goes over the brace unless the class is still
open there.

## Main statements

* `outlineMasked_filter_isFinishedBy`: the classes that are finished at a closing
  brace of the masked text are those of the text up to this brace.
* `outline_finished_eq`: two texts with the same bytes up to the closing brace of
  a class of one of them have this class, and all classes finished there, in
  common.
-/

namespace RecordText.Source

open RecordText.Text

/-- Whether the body of a class is closed at a byte offset or before it. -/
def ClassOutline.isFinishedBy (offset : Nat) (found : ClassOutline) : Bool :=
  match found.bodyClose with
  | none => false
  | some close => close ≤ offset

theorem ClassOutline.isFinishedBy_iff (offset : Nat) (found : ClassOutline) :
    found.isFinishedBy offset = true ↔ ∃ close, found.bodyClose = some close ∧ close ≤ offset := by
  unfold isFinishedBy
  cases found.bodyClose with
  | none => simp
  | some close => simp

/-- A walk closes the body where it starts or behind. -/
theorem le_of_walk_close (depth : Nat) (segment : List Char) (offset place : Nat)
    (text : List Char) (h : (walk depth segment offset text).close = some place) :
    offset ≤ place := by
  obtain ⟨inside, behind, -, -, rfl⟩ := (walk_close_iff _ _ _ _ _).1 h
  exact Nat.le_add_right _ _

/-- The body of a class is closed behind its header. -/
theorem Header.endOffset_le_bodyClose (header : Header) (close : Nat)
    (h : header.outline.bodyClose = some close) : header.endOffset ≤ close := by
  cases hfind : findOpen? header.endOffset header.rest with
  | none =>
      rw [header.outline_of_none hfind] at h
      cases h
  | some found =>
      obtain ⟨gap, -, -, hopen⟩ := findOpen?_eq_some _ _ _ _ hfind
      rw [header.outline_of_some _ _ hfind] at h
      have hclose := le_of_walk_close _ _ _ _ _ h
      omega

/-- A class whose header stands behind an offset is not finished there. -/
theorem not_isFinishedBy_of_mem_headers (before : List Char) (offset place : Nat)
    (text : List Char) (header : Header) (h : header ∈ headers before offset text)
    (hplace : place < offset) : header.outline.isFinishedBy place = false := by
  obtain ⟨front, -, hend, -⟩ := exists_front_of_mem_headers _ _ _ _ h
  rw [← Bool.not_eq_true, ClassOutline.isFinishedBy_iff]
  rintro ⟨close, hclose, hle⟩
  have hbehind := header.endOffset_le_bodyClose close hclose
  omega

/-- A class whose header stands before a closing brace is the same whatever follows the brace, or
is not finished at the brace. -/
theorem Header.outline_extend_eq_or (front : List Char) (header : Header)
    (h : header ∈ headers [] 0 (front ++ ['\x7d'])) (back : List Char) :
    (header.extend back).outline = header.outline ∨
      (header.extend back).outline.isFinishedBy (byteLength front) = false ∧
        header.outline.isFinishedBy (byteLength front) = false := by
  obtain ⟨more, hrest⟩ := exists_rest_of_mem_headers [] 0 front '\x7d' rfl header h
  obtain ⟨passed, hfront, hend, -⟩ := exists_front_of_mem_headers [] 0 _ header h
  have hopen : findOpen? (header.extend back).endOffset (header.extend back).rest =
      (findOpen? header.endOffset header.rest).map fun found => (found.1, found.2 ++ back) := by
    simp only [Header.extend, hrest, List.append_assoc, List.singleton_append]
    exact findOpen?_append header.endOffset more back '\x7d' rfl
  cases hfind : findOpen? header.endOffset header.rest with
  | none =>
      rw [hfind] at hopen
      rw [Header.outline_of_none _ hopen, Header.outline_of_none _ hfind]
      exact Or.inl rfl
  | some found =>
      obtain ⟨bodyOpen, inside⟩ := found
      rw [hfind] at hopen
      obtain ⟨gap, hgap, -, hbodyOpen⟩ := findOpen?_eq_some _ _ _ _ hfind
      have hsize : bodyOpen + 1 + byteLength inside = byteLength front + 1 := by
        have hbytes := congrArg byteLength (hfront.trans (congrArg (passed ++ ·) hgap))
        simp only [byteLength_append, byteLength, utf8Size_open, utf8Size_close] at hbytes
        omega
      rw [Header.outline_of_some _ _ _ hopen, Header.outline_of_some _ _ _ hfind]
      cases hdepth : depthAfter 0 inside with
      | none => exact Or.inl (by rw [walk_append_of_closed _ _ _ _ _ hdepth]; rfl)
      | some depth =>
          right
          have hopened := walk_close_eq_none 0 depth [] (bodyOpen + 1) inside hdepth
          refine ⟨?_, ?_⟩
          · rw [← Bool.not_eq_true, ClassOutline.isFinishedBy_iff]
            rintro ⟨close, hclose, hle⟩
            simp only [ClassOutline.ofBody] at hclose
            rw [walk_append _ _ _ _ _ _ hdepth, Body.prepend_close] at hclose
            have hbehind := le_of_walk_close _ _ _ _ _ hclose
            omega
          · simp only [ClassOutline.isFinishedBy, ClassOutline.ofBody, hopened]

/-- The classes that are finished at a closing brace are those of the text up to the brace. -/
theorem outlineMasked_filter_isFinishedBy (front back : List Char) :
    (outlineMasked (front ++ '\x7d' :: back)).filter
        (ClassOutline.isFinishedBy (byteLength front)) =
      (outlineMasked (front ++ ['\x7d'])).filter
        (ClassOutline.isFinishedBy (byteLength front)) := by
  have hbehind : ((headers ((front ++ ['\x7d']).reverse ++ [])
      (0 + byteLength (front ++ ['\x7d'])) back).map Header.outline).filter
        (ClassOutline.isFinishedBy (byteLength front)) = [] := by
    rw [List.filter_eq_nil_iff]
    intro found hfound
    obtain ⟨header, hheader, rfl⟩ := List.mem_map.1 hfound
    rw [not_isFinishedBy_of_mem_headers _ _ _ _ header hheader (by simp [byteLength])]
    exact Bool.false_ne_true
  rw [outlineMasked, headers_append_stop [] 0 front back '\x7d' rfl, List.map_append,
    List.filter_append, hbehind, List.append_nil, outlineMasked, List.map_map, List.filter_map,
    List.filter_map]
  have hkeep : ∀ header ∈ headers [] 0 (front ++ ['\x7d']),
      (header.extend back).outline.isFinishedBy (byteLength front) =
        header.outline.isFinishedBy (byteLength front) := by
    intro header hheader
    rcases header.outline_extend_eq_or front hheader back with heq | ⟨hlong, hshort⟩
    · rw [heq]
    · rw [hlong, hshort]
  have hfilter := List.filter_congr hkeep
  simp only [Function.comp_def] at hfilter ⊢
  rw [hfilter]
  apply List.map_congr_left
  intro header hheader
  obtain ⟨hmem, hfinished⟩ := List.mem_filter.1 hheader
  rcases header.outline_extend_eq_or front hmem back with heq | ⟨-, hshort⟩
  · exact heq
  · exact absurd hfinished (by simp [hshort])

/-- The text up to a closing brace is masked in the same way whatever follows the brace. -/
theorem ClosesAt.mask_eq {text before after : List Char} {front : List Token}
    (h : ClosesAt text before after front) (other : List Char) :
    mask (before ++ '\x7d' :: other) =
      front.flatMap Token.masked ++ '\x7d' :: maskFrom ('\x7d' :: before.reverse) other := by
  obtain ⟨rfl, rfl, hcut⟩ := h
  have hbrace : ∀ behind, cut (front.flatMap Token.text).reverse ('\x7d' :: behind) =
      .code '\x7d' :: cut ('\x7d' :: (front.flatMap Token.text).reverse) behind := by
    intro behind
    rw [cut, firstToken_of_not_opensTrivia _ '\x7d' behind (by decide)]
    rfl
  have hreplaces : Replaces ('\x7d' :: after) ('\x7d' :: other) :=
    Replaces.of_ne '\x7d' '\x7d' after other (by decide) (by decide)
  have hother := cut_replace [] _ _ front hreplaces (by rw [hcut, List.append_nil, hbrace])
  rw [mask, hother, List.append_nil, hbrace]
  simp [Token.masked, maskFrom]

end RecordText.Source

namespace RecordText.Text

/-- The bytes of a text are counted by its UTF-8 form. -/
theorem byteLength_eq_size (text : List Char) : byteLength text = text.utf8Encode.size := by
  rw [← length_utf8Bytes, ← List.size_toByteArray]
  rfl

/-- A text that shares the bytes of a front part with another text starts with this part. -/
theorem exists_append_of_extract_eq (text text' : String) (front back : List Char)
    (htext : text.toList = front ++ back)
    (hbytes : text.toByteArray.extract 0 (byteLength front) =
      text'.toByteArray.extract 0 (byteLength front)) :
    ∃ back', text'.toList = front ++ back' := by
  have hfront : text'.toByteArray.extract 0 (byteLength front) = front.utf8Encode := by
    rw [← hbytes, ← String.utf8Encode_toList, htext, List.utf8Encode_append]
    exact ByteArray.extract_append_eq_left (byteLength_eq_size front)
  have hle : byteLength front ≤ text'.toByteArray.size := by
    have hsize := congrArg ByteArray.size hfront
    rw [ByteArray.size_extract, ← byteLength_eq_size] at hsize
    omega
  have hcut : front.utf8Encode ++
      text'.toByteArray.extract (byteLength front) text'.toByteArray.size =
        text'.toList.utf8Encode := by
    rw [String.utf8Encode_toList, ← hfront,
      ← ByteArray.extract_eq_extract_append_extract _ (Nat.zero_le _) hle,
      ByteArray.extract_zero_size]
  obtain ⟨back', hback⟩ := List.isPrefix_of_utf8Encode_append_eq_utf8Encode _ hcut
  exact ⟨back', hback.symm⟩

end RecordText.Text

namespace RecordText.Source

open RecordText.Text

/-- The closing brace of a class stands in the text itself, at its byte offset. -/
theorem exists_closesAt_of_bodyClose (text : List Char) (found : ClassOutline) (close : Nat)
    (hfound : found ∈ outlineChars text) (hclose : found.bodyClose = some close) :
    ∃ before after tokens, ClosesAt text before after tokens ∧ byteLength before = close := by
  obtain ⟨front, inside, behind, hbody⟩ := exists_hasBody (mask text) found close hfound hclose
  have hmask : mask text = front ++ '\x7b' :: inside ++ '\x7d' :: behind := by
    simpa using hbody.masked_eq
  obtain ⟨before, after, tokens, hcloses, htokens, -⟩ := exists_closesAt text _ _ hmask
  refine ⟨before, after, tokens, hcloses, ?_⟩
  rw [← hcloses.front_text, ← byteLength_flatMap_masked, htokens]
  exact Option.some.inj (hbody.close_eq.symm.trans hclose)

/-- The classes that are finished at a closing brace of code are the same whatever follows the
brace. -/
theorem ClosesAt.filter_isFinishedBy_eq {text before after : List Char} {tokens : List Token}
    (h : ClosesAt text before after tokens) (other : List Char) :
    (outlineChars text).filter (ClassOutline.isFinishedBy (byteLength before)) =
      (outlineChars (before ++ '\x7d' :: other)).filter
        (ClassOutline.isFinishedBy (byteLength before)) := by
  have hsize : byteLength before = byteLength (tokens.flatMap Token.masked) := by
    rw [byteLength_flatMap_masked, h.front_text]
  have hoff : ∀ behind, (outlineChars (before ++ '\x7d' :: behind)).filter
      (ClassOutline.isFinishedBy (byteLength before)) =
        (outlineMasked (tokens.flatMap Token.masked ++ ['\x7d'])).filter
          (ClassOutline.isFinishedBy (byteLength before)) := by
    intro behind
    rw [hsize, ← outlineMasked_filter_isFinishedBy, outlineMasked, outlineChars, h.mask_eq behind]
  rw [h.text_eq, hoff, hoff]

/-- If two texts have the same bytes up to the closing brace of a class of one of them, both have
this class, with all that the outline shows of it, and both have the same classes that are finished
at the brace. -/
theorem outline_finished_eq (text text' : String) (found : ClassOutline) (close : Nat)
    (hfound : found ∈ outline text) (hclose : found.bodyClose = some close)
    (hbytes : text.toByteArray.extract 0 (close + 1) =
      text'.toByteArray.extract 0 (close + 1)) :
    found ∈ outline text' ∧
      (outline text).filter (ClassOutline.isFinishedBy close) =
        (outline text').filter (ClassOutline.isFinishedBy close) := by
  obtain ⟨before, after, tokens, hcloses, rfl⟩ :=
    exists_closesAt_of_bodyClose text.toList found close hfound hclose
  have hsize : byteLength (before ++ ['\x7d']) = byteLength before + 1 := by simp [byteLength]
  have htext : text.toList = before ++ ['\x7d'] ++ after := by simp [hcloses.text_eq]
  rw [← hsize] at hbytes
  obtain ⟨other, htext'⟩ := exists_append_of_extract_eq text text' _ _ htext hbytes
  have hsame : (outline text).filter (ClassOutline.isFinishedBy (byteLength before)) =
      (outline text').filter (ClassOutline.isFinishedBy (byteLength before)) := by
    have hother := hcloses.filter_isFinishedBy_eq other
    rw [outline, outline, htext', List.append_assoc, List.singleton_append]
    exact hother
  refine ⟨?_, hsame⟩
  have hmem : found ∈ (outline text).filter (ClassOutline.isFinishedBy (byteLength before)) :=
    List.mem_filter.2 ⟨hfound, (ClassOutline.isFinishedBy_iff _ _).2 ⟨_, hclose, Nat.le_refl _⟩⟩
  rw [hsame] at hmem
  exact (List.mem_filter.1 hmem).1

/-- A finished class, inside one that is not, with some text behind it. -/
def finishedClass (behind : String) : String :=
  "class A \x7b class É \x7b string S => @\"\x7d\"; \x7d" ++ behind

theorem outline_finished_unfinishedText :
    (finishedClass "/* \x7d").toByteArray.extract 0 40 =
        (finishedClass " class B \x7b \x7d \x7d \"").toByteArray.extract 0 40 ∧
      { name := "É", keywordOffset := 10, bodyOpen := some 19, bodyClose := some 39,
        properties := [{ name := "S", declaredType := "string" }], hasToString := false } ∈
          outline (finishedClass " class B \x7b \x7d \x7d \"") ∧
      (outline (finishedClass "/* \x7d")).filter (ClassOutline.isFinishedBy 39) =
        (outline (finishedClass " class B \x7b \x7d \x7d \"")).filter
          (ClassOutline.isFinishedBy 39) := by
  have hbytes : (finishedClass "/* \x7d").toByteArray.extract 0 40 =
      (finishedClass " class B \x7b \x7d \x7d \"").toByteArray.extract 0 40 := by
    decide +kernel
  exact ⟨hbytes, outline_finished_eq (finishedClass "/* \x7d") _ _ 39 (by decide +kernel)
    (by decide +kernel) hbytes⟩

end RecordText.Source
