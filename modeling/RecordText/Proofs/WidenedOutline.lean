import RecordText.Proofs.ClassBodies
import RecordText.Proofs.WidenedReading

/-!
# Outlines of widened text

The search for headers and the walk through a body pass over the spacers of a
line end one by one. In widened text they therefore find the same classes with
the same declarations, and every offset they report is that of the same sign.

## Implementation notes

Offsets are compared through the texts in front of them: two offsets are at the
same place if one cut of the two masked texts gives both. A search carries such
a cut along and moves it with every character it reads.
-/

namespace RecordText.Source

open RecordText.Text

/-- Two texts are cut at the same place, at the given offsets and in front of the given rests. -/
def SameCut (masked masked' : List Char) (offset offset' : Nat) (rest rest' : List Char) : Prop :=
  ∃ front front', masked = front ++ rest ∧ masked' = front' ++ rest' ∧ Widened front front' ∧
    byteLength front = offset ∧ byteLength front' = offset'

/-- The same closing brace stands at two offsets of two texts. -/
def SameBrace (masked masked' : List Char) (offset offset' : Nat) : Prop :=
  ∃ rest rest', SameCut masked masked' offset offset' ('\x7d' :: rest) ('\x7d' :: rest')

/-- Two bodies are alike: they have the same segments but for line ends, and the same closing
brace. -/
structure Body.Alike (masked masked' : List Char) (body body' : Body) : Prop where
  segments_alike : List.Forall₂ Segment.Alike body.segments body'.segments
  same_close : Option.Rel (SameBrace masked masked') body.close body'.close

/-- Two matched headers are alike: they have the same name, and the texts differ in line ends. -/
structure HeaderMatch.Alike (found found' : HeaderMatch) : Prop where
  name_eq : found'.name = found.name
  text_widened : Widened found.text found'.text
  rest_widened : Widened found.rest found'.rest

/-- Two headers are alike: they have the same name and end at the same place. -/
structure Header.Alike (masked masked' : List Char) (header header' : Header) : Prop where
  name_eq : header'.name = header.name
  same_end : SameCut masked masked' header.endOffset header'.endOffset header.rest header'.rest
  rest_widened : Widened header.rest header'.rest

/-- Two classes are alike: they have the same name, the same property names and the same closing
brace, and both override `ToString` or none does. -/
structure ClassOutline.Alike (masked masked' : List Char) (found found' : ClassOutline) :
    Prop where
  name_eq : found'.name = found.name
  properties_eq : found'.properties.map Field.name = found.properties.map Field.name
  hasToString_eq : found'.hasToString = found.hasToString
  same_close : Option.Rel (SameBrace masked masked') found.bodyClose found'.bodyClose

section Cuts

variable {masked masked' a b : List Char} {offset offset' : Nat}

/-- A cut moves behind texts that differ in line ends only. -/
theorem SameCut.append (piece piece' : List Char)
    (h : SameCut masked masked' offset offset' (piece ++ a) (piece' ++ b))
    (hpiece : Widened piece piece') :
    SameCut masked masked' (offset + byteLength piece) (offset' + byteLength piece') a b := by
  obtain ⟨front, front', rfl, rfl, hfront, rfl, rfl⟩ := h
  exact ⟨front ++ piece, front' ++ piece', by simp, by simp, hfront.append hpiece,
    byteLength_append .., byteLength_append ..⟩

/-- A cut moves behind one sign. -/
theorem SameCut.sign {c : Char} (h : SameCut masked masked' offset offset' (c :: a) (c :: b))
    (hc : c ≠ '\n') :
    SameCut masked masked' (offset + c.utf8Size) (offset' + c.utf8Size) a b :=
  SameCut.append [c] [c] h (.sign c hc .nil)

/-- A cut moves behind the spacers of a line end. -/
theorem SameCut.gap {x y : Char}
    (h : SameCut masked masked' offset offset' ('\n' :: a) (x :: y :: b))
    (hx : isSpacer x = true) (hy : isSpacer y = true) :
    SameCut masked masked' (offset + '\n'.utf8Size) (offset' + x.utf8Size + y.utf8Size) a b := by
  have hmoved := SameCut.append ['\n'] [x, y] h (.gap x y hx hy .nil)
  simpa only [byteLength, Nat.add_zero, ← Nat.add_assoc] using hmoved

end Cuts

/-- A spacer is no brace and no semicolon. -/
theorem not_isStop_of_isSpacer (c : Char) (h : isSpacer c = true) : isStop c = false :=
  (Blind.eq (p := isStop) (by decide) c h).trans (by decide)

/-- The walk takes up a sign that is no stop; inside a block the segment does not matter. -/
theorem walk_of_not_isStop (depth : Nat) (segment : List Char) (offset : Nat) (c : Char)
    (rest : List Char) (h : isStop c = false) :
    walk depth segment offset (c :: rest) =
      walk depth (c :: segment) (offset + c.utf8Size) rest := by
  simp only [isStop, Bool.or_eq_false_iff, beq_eq_false_iff_ne] at h
  cases depth with
  | zero => exact walk_zero_other _ _ _ c h.1 h.2
  | succ inner =>
      rw [walk_succ_other _ _ _ inner c h.1, walk_succ_segment inner (c :: segment)]

theorem readName?_at (c : Char) (rest : List Char) :
    readName? ('@' :: c :: rest) =
      if Language.csharp.isNameStart c then
        some ('@' :: c :: rest.takeWhile Language.csharp.isNameRest,
          rest.dropWhile Language.csharp.isNameRest)
      else none :=
  rfl

theorem readName?_of_ne (c : Char) (rest : List Char) (h : c ≠ '@') :
    readName? (c :: rest) =
      if Language.csharp.isNameStart c then
        some (c :: rest.takeWhile Language.csharp.isNameRest,
          rest.dropWhile Language.csharp.isNameRest)
      else none := by
  rw [readName?]
  rintro _ _ rfl
  exact absurd rfl h

theorem not_isNameStart_of_isSpacer (c : Char) (h : isSpacer c = true) :
    Language.csharp.isNameStart c = false :=
  (Blind.eq (p := Language.csharp.isNameStart) (by decide) c h).trans (by decide)

namespace Widened

variable {a b : List Char}

theorem findOpen? {masked masked' : List Char} {offset offset' : Nat} (h : Widened a b)
    (hcut : SameCut masked masked' offset offset' a b) :
    Option.Rel (fun found found' => Widened found.2 found'.2 ∧
        SameCut masked masked' found.1 found'.1 ('\x7b' :: found.2) ('\x7b' :: found'.2))
      (Source.findOpen? offset a) (Source.findOpen? offset' b) := by
  induction h generalizing offset offset' with
  | nil => exact .none
  | sign c hc h ih =>
      rw [Source.findOpen?, Source.findOpen?]
      split
      · rename_i hopen
        subst hopen
        exact .some ⟨h, hcut⟩
      · split
        · exact .none
        · exact ih (hcut.sign hc)
  | gap x y hx hy h ih =>
      rw [findOpen?_of_not_isStop _ x _ (not_isStop_of_isSpacer x hx),
        findOpen?_of_not_isStop _ y _ (not_isStop_of_isSpacer y hy),
        findOpen?_of_not_isStop _ '\n' _ (by decide)]
      exact ih (hcut.gap hx hy)

/-- Walks through texts that differ in line ends give bodies that differ in line ends. -/
theorem walk {masked masked' segment segment' : List Char} {offset offset' : Nat} (depth : Nat)
    (h : Widened a b) (hsegment : Widened segment segment')
    (hcut : SameCut masked masked' offset offset' a b) :
    Body.Alike masked masked' (Source.walk depth segment offset a)
      (Source.walk depth segment' offset' b) := by
  induction h generalizing depth segment segment' offset offset' with
  | nil => simpa using ⟨.nil, .none⟩
  | gap x y hx hy h ih =>
      rw [walk_of_not_isStop depth _ _ x _ (not_isStop_of_isSpacer x hx),
        walk_of_not_isStop depth _ _ y _ (not_isStop_of_isSpacer y hy),
        walk_of_not_isStop depth _ _ '\n' _ (by decide)]
      exact ih depth (.gap y x hy hx hsegment) (hcut.gap hx hy)
  | sign c hc h ih =>
      by_cases hstop : isStop c = true
      · have hrest := fun depth => ih depth .nil (hcut.sign hc)
        simp only [isStop, Bool.or_eq_true, beq_iff_eq] at hstop
        cases depth with
        | zero =>
            rcases hstop with (rfl | rfl) | rfl
            · rw [walk_zero_open, walk_zero_open]
              exact ⟨.cons ⟨hsegment.reverse, rfl⟩ (hrest 1).segments_alike, (hrest 1).same_close⟩
            · rw [walk_zero_close, walk_zero_close]
              exact ⟨.nil, .some ⟨_, _, hcut⟩⟩
            · rw [walk_zero_semicolon, walk_zero_semicolon]
              exact ⟨.cons ⟨hsegment.reverse, rfl⟩ (hrest 0).segments_alike, (hrest 0).same_close⟩
        | succ inner =>
            rcases hstop with (rfl | rfl) | rfl
            · rw [walk_succ_open, walk_succ_open]
              exact hrest (inner + 2)
            · rw [walk_succ_close, walk_succ_close]
              exact hrest inner
            · rw [walk_succ_other _ _ _ inner ';' (by decide),
                walk_succ_other _ _ _ inner ';' (by decide)]
              exact hrest (inner + 1)
      · rw [walk_of_not_isStop depth _ _ c _ (by simpa using hstop),
          walk_of_not_isStop depth _ _ c _ (by simpa using hstop)]
        exact ih depth (.sign c hc hsegment) (hcut.sign hc)

theorem readName? (h : Widened a b) :
    Option.Rel (fun found found' : Cut => found'.1 = found.1 ∧ Widened found.2 found'.2)
      (Source.readName? a) (Source.readName? b) := by
  have hrest : ∀ {rest rest' : List Char}, Widened rest rest' →
      rest'.takeWhile Language.csharp.isNameRest = rest.takeWhile Language.csharp.isNameRest ∧
        Widened (rest.dropWhile Language.csharp.isNameRest)
          (rest'.dropWhile Language.csharp.isNameRest) := fun hrest =>
    ⟨hrest.takeWhile_eq _ (by decide) (by decide), hrest.dropWhile _ (by decide)⟩
  cases h with
  | nil => exact .none
  | gap x y hx hy h =>
      rw [readName?_of_ne '\n' _ (by decide), if_neg (by decide),
        readName?_of_ne x _ (ne_of_isSpacer x '@' hx (by decide)),
        if_neg (by rw [not_isNameStart_of_isSpacer x hx]; decide)]
      exact .none
  | sign c hc h =>
      by_cases hat : c = '@'
      · subst hat
        cases h with
        | nil => exact .none
        | gap x y hx hy h =>
            rw [readName?_at, readName?_at, if_neg (by decide),
              if_neg (by rw [not_isNameStart_of_isSpacer x hx]; decide)]
            exact .none
        | sign d hd h =>
            rw [readName?_at, readName?_at]
            split
            · exact .some ⟨by rw [(hrest h).1], (hrest h).2⟩
            · exact .none
      · rw [readName?_of_ne c _ hat, readName?_of_ne c _ hat]
        split
        · exact .some ⟨by rw [(hrest h).1], (hrest h).2⟩
        · exact .none

theorem readHeader? (h : Widened a b) :
    Option.Rel HeaderMatch.Alike (Source.readHeader? a) (Source.readHeader? b) := by
  have hword := h.behind? classWord isWord_classWord.not_isSpacer
  have hkeyword : Widened classWord classWord := Widened.refl _ (by decide)
  unfold Source.readHeader?
  generalize Text.behind? classWord a = found at hword ⊢
  generalize Text.behind? classWord b = found' at hword ⊢
  cases hword with
  | none => exact .none
  | @some behind behind' hbehind =>
      have hgap := hbehind.takeWhile isBlank (by decide)
      have hname := (hbehind.dropWhile isBlank (by decide)).readName?
      dsimp only
      rw [hgap.isEmpty_eq]
      split
      · exact .none
      · generalize hread : Source.readName? (behind.dropWhile isBlank) = read at hname ⊢
        generalize Source.readName? (behind'.dropWhile isBlank) = read' at hname ⊢
        cases hname with
        | none => exact .none
        | @some cut cut' hcut =>
            have hfeed : '\n' ∉ cut.1 := by
              intro hmem
              have hform := (readName?_eq_some _ _ hread).1
              have hblank := not_isBlank_of_mem_isName cut.1 hform '\n' hmem
              revert hblank
              decide
            refine .some ⟨hcut.1, ?_, hcut.2⟩
            simp only [HeaderMatch.text, hcut.1]
            exact (hkeyword.append hgap).append (Widened.refl _ hfeed)

theorem declaresClass_eq (h : Widened a b) : declaresClass b = declaresClass a := by
  have hdrop := h.dropWhile isPlainBlank (by decide)
  have hhead : ∀ {front front' : List Char} (c : Char), Widened front front' →
      isSpacer c = false → (front'.head? != some c) = (front.head? != some c) := by
    intro front front' c hfront hc
    rw [Bool.eq_iff_iff, bne_iff_ne, bne_iff_ne, ne_eq, ne_eq, hfront.head?_eq_some_iff c hc]
  rw [Source.declaresClass_eq, Source.declaresClass_eq, hhead '@' h (by decide),
    hhead ':' hdrop (by decide), hhead ',' hdrop (by decide)]

variable {before before' : List Char}

theorem headerAt? (h : Widened a b) (hbefore : Widened before before') :
    Option.Rel HeaderMatch.Alike (Source.headerAt? before a) (Source.headerAt? before' b) := by
  rw [Source.headerAt?, Source.headerAt?, hbefore.startsOutsideWord_eq]
  split
  · exact h.readHeader?
  · exact .none

theorem exists_headerAt? {masked masked' : List Char} {offset offset' : Nat} {found : HeaderMatch}
    (h : Widened a b) (hbefore : Widened before before')
    (hcut : SameCut masked masked' offset offset' a b)
    (hfound : Source.headerAt? before a = some found) :
    ∃ found', Source.headerAt? before' b = some found' ∧ found.Alike found' ∧
      SameCut masked masked' (offset + byteLength found.text) (offset' + byteLength found'.text)
        found.rest found'.rest := by
  have hrel := h.headerAt? hbefore
  rw [hfound] at hrel
  generalize hfound' : Source.headerAt? before' b = read at hrel
  cases hrel with
  | @some _ found' halike =>
      refine ⟨found', rfl, halike, SameCut.append _ _ ?_ halike.text_widened⟩
      rwa [headerAt?_append _ _ _ hfound, headerAt?_append _ _ _ hfound']

/-- The search passes over a spacer. -/
theorem headers_spacer (offset : Nat) (c : Char) (rest : List Char) (hc : isSpacer c = true) :
    headers before offset (c :: rest) = headers (c :: before) (offset + c.utf8Size) rest :=
  headers_cons_of_none _ _ _ _
    (headerAt?_eq_none_of_ne _ _ _ (ne_of_isSpacer c 'c' hc (by decide)))

/-- Texts that differ in line ends have the same headers. -/
theorem headers {masked masked' : List Char} {offset offset' : Nat} (h : Widened a b)
    (hbefore : Widened before before') (hcut : SameCut masked masked' offset offset' a b) :
    List.Forall₂ (Header.Alike masked masked') (Source.headers before offset a)
      (Source.headers before' offset' b) := by
  fun_induction Source.headers before offset a generalizing b before' offset' with
  | case1 before offset =>
      rw [h.nil_iff.2 rfl, headers_nil]
      exact .nil
  | case2 before offset c rest hnone ih =>
      cases h with
      | gap x y hx hy h =>
          rw [headers_spacer _ x _ hx, headers_spacer _ y _ hy]
          exact ih h (.gap y x hy hx hbefore) (hcut.gap hx hy)
      | sign _ hc h =>
          have hfound := (Widened.sign c hc h).headerAt? hbefore
          rw [hnone] at hfound
          generalize hnone' : Source.headerAt? before' (c :: _) = found' at hfound
          cases hfound
          rw [headers_cons_of_none _ _ _ _ hnone']
          exact ih h (.sign c hc hbefore) (hcut.sign hc)
  | case3 before offset c rest found hsome endOffset later =>
      rename_i hdeclares ih
      obtain ⟨found', hsome', halike, hbehind⟩ := h.exists_headerAt? hbefore hcut hsome
      rw [headers_of_some _ _ _ found' hsome', hbefore.declaresClass_eq, if_pos hdeclares]
      exact .cons ⟨halike.name_eq, hbehind, halike.rest_widened⟩
        (ih halike.rest_widened (halike.text_widened.reverse.append hbefore) hbehind)
  | case4 before offset c rest found hsome endOffset later =>
      rename_i hdeclares ih
      obtain ⟨found', hsome', halike, hbehind⟩ := h.exists_headerAt? hbefore hcut hsome
      rw [headers_of_some _ _ _ found' hsome', hbefore.declaresClass_eq, if_neg hdeclares]
      exact ih halike.rest_widened (halike.text_widened.reverse.append hbefore) hbehind

end Widened

theorem keys_eq (segments segments' : List Segment)
    (h : List.Forall₂ Segment.Alike segments segments') :
    (segments'.filterMap Segment.declared?).map Declared.key =
      (segments.filterMap Segment.declared?).map Declared.key := by
  rw [List.map_filterMap, List.map_filterMap]
  induction h with
  | nil => rfl
  | cons hsegment _ ih => rw [List.filterMap_cons, List.filterMap_cons, hsegment.key_eq, ih]

theorem properties_names_eq (declared : List Declared) :
    (properties declared).map Field.name = (declared.map Declared.key).reduceOption := by
  induction declared with
  | nil => rfl
  | cons first rest ih =>
      cases first with
      | toStringOverride => exact ih
      | property field => exact congrArg (field.name :: ·) ih

theorem contains_toStringOverride_eq (declared : List Declared) :
    declared.contains .toStringOverride = (declared.map Declared.key).contains none := by
  induction declared with
  | nil => rfl
  | cons first rest ih =>
      rw [List.map_cons, List.contains_cons, List.contains_cons, ih]
      cases first <;> rfl

/-- Headers that are alike declare classes that are alike. -/
theorem Header.Alike.outline {masked masked' : List Char} {header header' : Header}
    (h : Header.Alike masked masked' header header') :
    ClassOutline.Alike masked masked' header.outline header'.outline := by
  have hopen := h.rest_widened.findOpen? h.same_end
  generalize hfind : findOpen? header.endOffset header.rest = opened at hopen
  generalize hfind' : findOpen? header'.endOffset header'.rest = opened' at hopen
  cases hopen with
  | none =>
      rw [header.outline_of_none hfind, header'.outline_of_none hfind']
      exact ⟨congrArg String.ofList h.name_eq, rfl, rfl, .none⟩
  | @some opened opened' halike =>
      obtain ⟨place, inside⟩ := opened
      obtain ⟨place', inside'⟩ := opened'
      have hbody := halike.1.walk 0 .nil (halike.2.sign (by decide))
      rw [utf8Size_open] at hbody
      have hkeys := keys_eq _ _ hbody.segments_alike
      rw [header.outline_of_some _ _ hfind, header'.outline_of_some _ _ hfind']
      refine ⟨congrArg String.ofList h.name_eq, ?_, ?_, hbody.same_close⟩
      · simp only [ClassOutline.ofBody, properties_names_eq, hkeys]
      · simp only [ClassOutline.ofBody, contains_toStringOverride_eq, hkeys]

/-- Masked texts that differ in line ends have classes that are alike. -/
theorem Widened.outlineMasked {masked masked' : List Char} (h : Widened masked masked') :
    List.Forall₂ (ClassOutline.Alike masked masked') (outlineMasked masked)
      (outlineMasked masked') := by
  have hcut : SameCut masked masked' 0 0 masked masked' := ⟨[], [], rfl, rfl, .nil, rfl, rfl⟩
  rw [Source.outlineMasked, Source.outlineMasked, List.forall₂_map_left_iff,
    List.forall₂_map_right_iff]
  exact (h.headers .nil hcut).imp fun _ _ halike => halike.outline

end RecordText.Source
