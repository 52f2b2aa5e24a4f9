import RecordText.Descriptor.Validity
import RecordText.Proofs.CompletedOutline
import RecordText.Proofs.MemberReading

/-!
# Headers in unfinished pieces

An override behind an unfinished piece of a class body gives the headers in the
piece a body: the block of the override. They were headers without a body
before. At most one more header comes into being, if the piece ends with the
word `class`: its name is the first word of the signature, which is reserved.

## Main statements

* `names_headers_head`: the headers in a piece with a signature behind it.
* `outline_extend_head`: the class that such a header declares.
-/

namespace RecordText.Source

open RecordText.Text

/-! ### Headers in front of a blank -/

section Blank

variable (b : Char) (rest : List Char) (hb : isBlank b = true)

/-- A word is in front of a text that goes on with another sign exactly if it was before. -/
theorem behind?_append_of_not_mem (word text : List Char) (h : b ∉ word) :
    behind? word (text ++ b :: rest) = (behind? word text).map (· ++ b :: rest) := by
  induction word generalizing text with
  | nil => rfl
  | cons w word ih =>
      rw [List.mem_cons, not_or] at h
      cases text with
      | nil =>
          rw [List.nil_append]
          exact if_neg (Ne.symm h.1)
      | cons c text =>
          rw [List.cons_append, behind?, behind?, ih text h.2]
          split <;> rfl

include hb

theorem not_isNameStart_of_isBlank : Language.csharp.isNameStart b = false := by
  by_contra hstart
  have hrest := Language.isNameRest_of_isNameStart _ b (by simpa using hstart)
  rw [not_isNameRest_of_isBlank b hb] at hrest
  cases hrest

/-- A blank ends a name and starts none. -/
theorem readName?_append_blank (text : List Char) (hne : text ≠ []) :
    readName? (text ++ b :: rest) =
      (readName? text).map fun found => (found.1, found.2 ++ b :: rest) := by
  have hend := not_isNameRest_of_isBlank b hb
  have htake := fun text => takeWhile_append_of_neg text rest b hend
  have hdrop := fun text => dropWhile_append_of_neg text rest b hend
  obtain ⟨c, text, rfl⟩ := List.exists_cons_of_ne_nil hne
  by_cases hat : c = '@'
  · subst hat
    cases text with
    | nil =>
        have hstart : Language.csharp.isNameStart '@' = false := by decide
        simp [readName?, not_isNameStart_of_isBlank b hb, hstart]
    | cons d text =>
        simp only [List.cons_append, readName?, htake, hdrop]
        split <;> rfl
  · have hread : ∀ text, readName? (c :: text) =
        if Language.csharp.isNameStart c then
          some (c :: text.takeWhile Language.csharp.isNameRest,
            text.dropWhile Language.csharp.isNameRest)
        else none := by
      intro text
      rw [readName?]
      rintro _ _ rfl
      exact absurd rfl hat
    rw [List.cons_append, hread, hread, htake, hdrop]
    split <;> rfl

/-- In front of a blank the same headers are read as at the end of a text, unless the text is the
word `class` with blanks, whose name is yet to come. -/
theorem readHeader?_append_blank (text : List Char)
    (h : ∀ gap, text = classWord ++ gap → ∃ c ∈ gap, isBlank c = false) :
    readHeader? (text ++ b :: rest) =
      (readHeader? text).map (HeaderMatch.extend (b :: rest)) := by
  have hword : b ∉ classWord := by
    intro hmem
    have hblank : ∀ c ∈ classWord, isBlank c = false := by decide
    rw [hblank b hmem] at hb
    cases hb
  unfold readHeader?
  rw [behind?_append_of_not_mem b rest classWord text hword]
  cases hbehind : behind? classWord text with
  | none => rfl
  | some behind =>
      obtain ⟨c, hc, hblank⟩ := h behind ((behind?_eq_some_iff _ _ _).1 hbehind).symm
      obtain ⟨sign, more, hdrop⟩ : ∃ sign more, behind.dropWhile isBlank = sign :: more := by
        apply List.exists_cons_of_ne_nil
        intro hnil
        rw [List.dropWhile_eq_nil_iff.1 hnil c hc] at hblank
        cases hblank
      have hsplit : behind = behind.takeWhile isBlank ++ sign :: more := by
        rw [← hdrop, List.takeWhile_append_dropWhile]
      have hsign := List.head?_dropWhile_not isBlank behind
      rw [hdrop] at hsign
      have hcut := takeWhile_dropWhile_of_stop (p := isBlank) (behind.takeWhile isBlank)
        (sign :: more ++ b :: rest) (fun d hd => List.mem_takeWhile_imp hd) (by simpa using hsign)
      rw [← List.append_assoc, ← hsplit] at hcut
      have hname := readName?_append_blank b rest hb (sign :: more) (List.cons_ne_nil _ _)
      simp only [Option.map_some, hcut.1, hcut.2, hdrop, hname]
      split
      · rfl
      · cases readName? (sign :: more) <;> rfl

end Blank

/-! ### Headers in front of a signature -/

/-- The first word of a signature. -/
def signatureStart : List Char := "public".toList

/-- A signature without its first word. -/
def signatureTail : List Char := " override string ToString()".toList

theorem signature_split : overrideSignature = signatureStart ++ signatureTail := by
  decide +kernel

theorem head?_signatureTail : signatureTail.head? = some ' ' := by
  decide +kernel

theorem isName_signatureStart : isName signatureStart = true := by
  decide +kernel

/-- What follows the first word of an override, up to the brace. -/
def OverrideText.headTail (override : OverrideText) : List Char :=
  signatureTail ++ (override.gap ++ ['\x7b'])

theorem OverrideText.head_eq (override : OverrideText) :
    override.head ++ ['\x7b'] = override.lead ++ (signatureStart ++ override.headTail) := by
  rw [OverrideText.head, signature_split, OverrideText.headTail]
  simp only [List.append_assoc]

theorem OverrideText.headers_headTail (override : OverrideText) (before : List Char)
    (offset : Nat) : headers before offset override.headTail = [] := by
  have hclear : ClearOfHeaders (override.lead ++ signatureStart ++
      (signatureTail ++ override.gap)) := by
    have hhead := override.clear_head
    rw [OverrideText.head, signature_split] at hhead
    simpa only [List.append_assoc] using hhead
  rw [OverrideText.headTail, ← List.append_assoc,
    headers_skip_clear _ _ _ _ '\x7b' rfl hclear.right_of_append, headers_nil]

/-- The word `class` in front of a signature takes its first word for a name. -/
theorem readHeader?_class_head (gap : List Char) (override : OverrideText)
    (hgap : ∀ c ∈ gap, isBlank c = true) (hlead : override.lead ≠ []) :
    readHeader? (classWord ++ gap ++ (override.head ++ ['\x7b'])) =
      some { gap := gap ++ override.lead, name := signatureStart, rest := override.headTail } := by
  refine (readHeader?_eq_some_iff _ _).2 ⟨?_, by simp [hlead],
    List.forall_mem_append.2 ⟨hgap, override.lead_blank⟩, isName_signatureStart, ?_⟩
  · rw [override.head_eq, HeaderMatch.text]
    simp only [List.append_assoc]
  · have hend : Language.csharp.isNameRest ' ' = false := by decide
    simpa [OverrideText.headTail, List.head?_append, head?_signatureTail] using hend

/-- The word `class` and blanks are no header yet. -/
theorem readHeader?_class_blanks (gap : List Char) (hgap : ∀ c ∈ gap, isBlank c = true) :
    readHeader? (classWord ++ gap) = none := by
  by_contra hsome
  obtain ⟨found, hfound⟩ := Option.ne_none_iff_exists'.1 hsome
  obtain ⟨htext, hform⟩ := (readHeader?_eq_some_iff _ found).1 hfound
  have hname : gap = found.gap ++ (found.name ++ found.rest) := by
    simpa [HeaderMatch.text] using htext
  obtain ⟨c, hc⟩ := List.exists_mem_of_ne_nil found.name (by
    intro hnil
    have hempty := hform.name_form
    rw [hnil] at hempty
    revert hempty
    decide)
  have hblank := hgap c (by rw [hname]; simp [hc])
  rw [not_isBlank_of_mem_isName _ hform.name_form c hc] at hblank
  cases hblank

/-- The headers of the word `class` and blanks, at the end of a text and in front of a
signature. -/
theorem headers_class_head (before : List Char) (offset : Nat) (gap : List Char)
    (override : OverrideText) (hgap : ∀ c ∈ gap, isBlank c = true) (hlead : override.lead ≠ []) :
    headers before offset (classWord ++ gap) = [] ∧
      (headers before offset (classWord ++ gap ++ (override.head ++ ['\x7b']))).map Header.name ∈
        [[], [signatureStart]] := by
  have hletters : classWord = 'c' :: "lass".toList := by decide
  have hskip : 'c' ∉ "lass".toList ++ gap := by
    rw [List.mem_append, not_or]
    exact ⟨by decide, not_mem_of_isBlank _ _ hgap (by decide)⟩
  have hnone : ∀ more, headerAt? before (classWord ++ gap ++ more) = none →
      headers before offset (classWord ++ gap ++ more) =
        headers (("lass".toList ++ gap).reverse ++ 'c' :: before)
          (offset + 'c'.utf8Size + byteLength ("lass".toList ++ gap)) more := by
    intro more hmore
    rw [hletters, List.append_assoc, List.cons_append, ← List.append_assoc] at hmore ⊢
    rw [headers_cons_of_none _ _ _ _ hmore, Skips.of_ne _ hskip]
  constructor
  · have hat : headerAt? before (classWord ++ gap ++ []) = none := by
      unfold headerAt?
      rw [List.append_nil, readHeader?_class_blanks gap hgap]
      split <;> rfl
    have hheaders := hnone [] hat
    rwa [headers_nil, List.append_nil] at hheaders
  · cases hstart : startsOutsideWord before with
    | false =>
        have hat : headerAt? before (classWord ++ gap ++ (override.head ++ ['\x7b'])) = none := by
          rw [headerAt?, hstart]
          rfl
        rw [hnone _ hat, override.headers_head]
        exact List.mem_cons_self
    | true =>
        have hat := readHeader?_class_head gap override hgap hlead
        rw [headers_of_some _ _ _ _ (by rw [headerAt?, if_pos hstart]; exact hat),
          override.headers_headTail]
        split <;> simp

/-- The signature of an override behind a piece keeps the headers of the piece. If the piece ends
with the word `class`, the first word of the signature makes one more. -/
theorem names_headers_head (before : List Char) (offset : Nat) (piece : List Char)
    (override : OverrideText) (hlead : override.lead ≠ []) :
    ∃ last ∈ [[], [signatureStart]],
      (headers before offset (piece ++ (override.head ++ ['\x7b']))).map Header.name =
        (headers before offset piece).map Header.name ++ last := by
  obtain ⟨b, behind, hb, hbehind⟩ : ∃ b behind, isBlank b = true ∧
      override.head ++ ['\x7b'] = b :: behind := by
    obtain ⟨b, blanks, hblanks⟩ := List.exists_cons_of_ne_nil hlead
    exact ⟨b, _, override.lead_blank b (by simp [hblanks]), by rw [override.head_eq, hblanks]; rfl⟩
  induction hlen : piece.length using Nat.strong_induction_on generalizing before offset piece with
  | _ n ih =>
    subst hlen
    cases piece with
    | nil =>
        refine ⟨[], List.mem_cons_self, ?_⟩
        rw [List.nil_append, override.headers_head, headers_nil]
        rfl
    | cons c rest =>
        by_cases hclass : ∃ gap, c :: rest = classWord ++ gap ∧ ∀ d ∈ gap, isBlank d = true
        · obtain ⟨gap, hpiece, hgap⟩ := hclass
          obtain ⟨hheaders, hnames⟩ := headers_class_head before offset gap override hgap hlead
          rw [hpiece, hheaders]
          exact ⟨_, hnames, rfl⟩
        · have hread := readHeader?_append_blank b behind hb (c :: rest) (by
            intro gap hgap
            by_contra hblank
            exact hclass ⟨gap, hgap, by simpa using hblank⟩)
          have hat : headerAt? before (c :: rest ++ b :: behind) =
              (headerAt? before (c :: rest)).map (HeaderMatch.extend (b :: behind)) := by
            unfold headerAt?
            split
            · exact hread
            · rfl
          cases hfound : headerAt? before (c :: rest) with
          | none =>
              obtain ⟨last, hlast, hnames⟩ := ih rest.length (by simp) (c :: before)
                (offset + c.utf8Size) rest rfl
              refine ⟨last, hlast, ?_⟩
              rw [hfound, Option.map_none, List.cons_append] at hat
              rw [hbehind] at hnames ⊢
              rw [headers_cons_of_none _ _ _ _ hfound, List.cons_append,
                headers_cons_of_none _ _ _ _ hat, hnames]
          | some found =>
              obtain ⟨last, hlast, hnames⟩ := ih _ (headerAt?_length_lt before _ found hfound)
                (found.text.reverse ++ before) (offset + byteLength found.text) found.rest rfl
              refine ⟨last, hlast, ?_⟩
              rw [hfound] at hat
              rw [hbehind] at hnames ⊢
              rw [headers_of_some _ _ _ _ hfound, headers_of_some _ _ _ _ hat,
                HeaderMatch.extend_text, HeaderMatch.extend_rest, List.map_append, List.map_append,
                hnames, List.append_assoc]
              congr 1
              split <;> rfl

/-! ### Classes in a piece -/

/-- A class that an unfinished piece gets takes the block of the override for its body, and nothing
is declared there. -/
structure ClassOutline.TakesBlock (offset : Nat) (found : ClassOutline) : Prop where
  properties_eq : found.properties = []
  hasToString_eq : found.hasToString = false
  behind : ∃ close, found.bodyClose = some close ∧ offset ≤ close

/-- Between a header and the stop behind a piece of text without stops there is none. -/
theorem exists_rest_of_not_isStop (before : List Char) (offset : Nat) (piece : List Char)
    (stop : Char) (hstop : isStop stop = true) (hpiece : ∀ c ∈ piece, isStop c = false)
    (header : Header) (h : header ∈ headers before offset (piece ++ [stop])) :
    ∃ more, header.rest = more ++ [stop] ∧ ∀ c ∈ more, isStop c = false := by
  obtain ⟨passed, htext, -, -⟩ := exists_front_of_mem_headers before offset _ header h
  obtain ⟨more, hmore⟩ := exists_rest_of_mem_headers before offset _ stop hstop header h
  refine ⟨more, hmore, ?_⟩
  have hwhole : piece = passed ++ more := by
    rw [hmore, ← List.append_assoc] at htext
    exact (List.append_inj' htext rfl).1
  intro c hc
  exact hpiece c (by rw [hwhole]; simp [hc])

/-- A header in front of a closing brace has no body. -/
theorem bodyClose_of_mem_headers (before : List Char) (offset : Nat) (piece behind : List Char)
    (hpiece : ∀ c ∈ piece, isStop c = false) (header : Header)
    (h : header ∈ headers before offset (piece ++ ['\x7d'])) :
    (header.extend behind).outline.bodyClose = none := by
  obtain ⟨more, hmore, hstops⟩ :=
    exists_rest_of_not_isStop before offset piece '\x7d' rfl hpiece header h
  have hopen : findOpen? (header.extend behind).endOffset (header.extend behind).rest = none := by
    simp only [Header.extend, hmore, List.append_assoc, List.singleton_append]
    rw [findOpen?_gap _ more _ hstops]
    rfl
  rw [Header.outline_of_none _ hopen]
  rfl

section Classes

variable (piece : List Char) (hpiece : ∀ c ∈ piece, isStop c = false) (override : OverrideText)

include hpiece

/-- The classes of an unfinished piece with an override behind it. -/
theorem takesBlock_of_mem_headers (before : List Char) (offset : Nat) (behind : List Char)
    (header : Header)
    (h : header ∈ headers before offset (piece ++ (override.head ++ ['\x7b']))) :
    (header.extend (override.body ++ '\x7d' :: behind)).outline.TakesBlock offset := by
  obtain ⟨passed, -, hend, -⟩ := exists_front_of_mem_headers before offset _ header h
  obtain ⟨more, hmore, hstops⟩ := exists_rest_of_not_isStop before offset (piece ++ override.head)
    '\x7b' rfl (List.forall_mem_append.2 ⟨hpiece, override.not_isStop_head⟩) header
    (by simpa using h)
  have hopen : findOpen? (header.extend (override.body ++ '\x7d' :: behind)).endOffset
      (header.extend (override.body ++ '\x7d' :: behind)).rest =
        some (header.endOffset + byteLength more, override.body ++ '\x7d' :: behind) := by
    simp only [Header.extend, hmore, List.append_assoc, List.singleton_append]
    rw [findOpen?_gap _ more _ hstops]
    rfl
  rw [Header.outline_of_some _ _ _ hopen, walk_close 0 [] _ override.body behind
    (depthAfter_of_no_braces 0 _ override.body_plain)]
  constructor
  · simp only [ClassOutline.ofBody, override.body_silent]
    rfl
  · simp only [ClassOutline.ofBody, override.body_silent]
    rfl
  · exact ⟨_, rfl, by omega⟩

/-- A class of an unfinished piece has no properties. -/
theorem properties_of_mem_outlineMasked (found : ClassOutline) (h : found ∈ outlineMasked piece) :
    found.properties = [] := by
  obtain ⟨header, hheader, rfl⟩ := List.mem_map.1 h
  obtain ⟨passed, htext, -, -⟩ := exists_front_of_mem_headers [] 0 piece header hheader
  have hnone : findOpen? header.endOffset header.rest = none := by
    by_contra hsome
    obtain ⟨opened, hopened⟩ := Option.ne_none_iff_exists'.1 hsome
    obtain ⟨gap, hgap, -⟩ := findOpen?_eq_some _ opened.1 _ opened.2 hopened
    have hbrace := hpiece '\x7b' (by rw [htext, hgap]; simp)
    cases hbrace
  rw [header.outline_of_none hnone]
  rfl

/-- Whether a class of the given name can be described. -/
def isDescribable (name : String) : Bool :=
  (Descriptor.validate { typeName := name } .csharp).isOk

/-- No class that an unfinished piece gets can be described exactly if this holds of the classes of
the piece alone. -/
theorem forall_describable_piece_iff (far : List Char) (stop : Char) (hstop : isStop stop = true)
    (offset : Nat) (hlead : override.lead ≠ []) :
    (∀ header ∈ headers (stop :: far) offset (piece ++ (override.head ++ ['\x7b'])),
        isDescribable (String.ofList header.name) = false) ↔
      ∀ found ∈ outlineMasked piece, (found.descriptor.validate .csharp).isOk = false := by
  have hpublic : isDescribable (String.ofList signatureStart) = false := by decide +kernel
  obtain ⟨last, hlast, hnames⟩ := names_headers_head (stop :: far) offset piece override hlead
  have hshift : (headers (stop :: far) offset piece).map Header.name =
      (headers [] 0 piece).map Header.name := by
    have hoffset := headers_shift [] 0 offset piece
    rw [Nat.zero_add] at hoffset
    rw [← List.nil_append (stop :: far), headers_behind_stop [] far stop hstop, hoffset,
      List.map_map]
    rfl
  have hall : ∀ list : List Header,
      (∀ header ∈ list, isDescribable (String.ofList header.name) = false) ↔
        ∀ name ∈ list.map Header.name, isDescribable (String.ofList name) = false := by
    simp
  have hlast' : ∀ name ∈ last, isDescribable (String.ofList name) = false := by
    simp only [List.mem_cons, List.not_mem_nil, or_false] at hlast
    rcases hlast with rfl | rfl
    · simp
    · simpa using hpublic
  rw [hall, hnames, hshift, List.forall_mem_append, and_iff_left hlast', ← hall]
  simp only [outlineMasked, List.forall_mem_map]
  refine forall₂_congr fun header hheader => ?_
  have hproperties := properties_of_mem_outlineMasked piece hpiece header.outline
    (List.mem_map_of_mem hheader)
  rw [ClassOutline.descriptor, hproperties, header.outline_name, isDescribable]

end Classes

end RecordText.Source
