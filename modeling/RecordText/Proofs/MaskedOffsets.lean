import RecordText.Proofs.ClassBodies
import RecordText.Proofs.LexicalCut

/-!
# Offsets and encoding of masked text

Masking works on bytes: it blanks out ranges of them and leaves the rest, and
the outline is read from ranges of the masked bytes. No such range cuts a
character in two, so the masked bytes and every piece that is read from them
are the form of a text.

## Main statements

* `keepsOffsets_mask`: masked bytes stand for the bytes of the text place by
  place.
* `exists_of_mem_triviaRanges`: trivia starts and stops between characters.
* `forall₂_holdsSegment`: the segments of a body in bytes are its segments.
* `mask_keeps_encoding`: so nothing is cut wrongly and no class is lost.

## Implementation notes

The segments of a body are found once more in bytes, with a start and a stop for
each. The walk over the bytes and the walk over the characters go side by side,
and inside a block only the depth has to agree.
-/

namespace RecordText.Source

open RecordText.Text

/-- Whether masked bytes stand for the bytes of a text place by place: they are as many, line feeds
stay where they are, and any other byte is kept or a space. -/
structure KeepsOffsets (masked bytes : List UInt8) : Prop where
  length_eq : masked.length = bytes.length
  feed_iff : ∀ place : Nat, masked[place]? = some '\n'.toUInt8 ↔ bytes[place]? = some '\n'.toUInt8
  agrees : ∀ (place : Nat) (b : UInt8), masked[place]? = some b → b ≠ ' '.toUInt8 →
    bytes[place]? = some b

theorem MasksByte.feed_iff {masked b : UInt8} (h : MasksByte masked b) :
    masked = '\n'.toUInt8 ↔ b = '\n'.toUInt8 := by
  rcases h with rfl | rfl
  · rfl
  · unfold blankByte
    split
    · rfl
    · rename_i hb
      have hspace : ' '.toUInt8 ≠ '\n'.toUInt8 := by decide
      exact iff_of_false hspace hb

theorem KeepsOffsets.of_forall₂ {masked bytes : List UInt8}
    (h : List.Forall₂ MasksByte masked bytes) : KeepsOffsets masked bytes := by
  induction h with
  | nil => exact ⟨rfl, fun _ => Iff.rfl, fun _ _ hnone => by cases hnone⟩
  | @cons m b masked bytes hb _ ih =>
      refine ⟨congrArg (· + 1) ih.length_eq, ?_, ?_⟩
      · rintro (_ | place)
        · simpa using hb.feed_iff
        · simpa using ih.feed_iff place
      · rintro (_ | place) d hd hne
        · obtain rfl : m = d := by simpa using hd
          simpa using (hb.eq_of_ne hne).symm
        · simpa using ih.agrees place d (by simpa using hd) hne

/-- Masked bytes without a space stand in the text. -/
theorem KeepsOffsets.extract_eq {masked bytes : List UInt8} (h : KeepsOffsets masked bytes)
    (start stop : Nat) (hspace : ' '.toUInt8 ∉ masked.extract start stop) :
    bytes.extract start stop = masked.extract start stop := by
  apply List.ext_getElem?
  intro place
  rw [List.extract, List.extract, List.getElem?_take, List.getElem?_take]
  split
  · rename_i hplace
    rw [List.getElem?_drop, List.getElem?_drop]
    cases hmasked : masked[start + place]? with
    | none =>
        rw [List.getElem?_eq_none_iff] at hmasked ⊢
        rwa [← h.length_eq]
    | some b =>
        apply h.agrees _ b hmasked
        rintro rfl
        apply hspace
        apply List.mem_of_getElem? (i := place)
        rw [List.extract, List.getElem?_take, if_pos hplace, List.getElem?_drop, hmasked]
  · rfl

theorem keepsOffsets_mask (text : List Char) :
    KeepsOffsets (utf8Bytes (mask text)) (utf8Bytes text) := by
  have hmasks := forall₂_masksByte ((cut [] text).flatMap Token.inBytes)
  rw [← utf8Bytes_mask, (lexes_cut [] text).flatMap_bytes] at hmasks
  exact KeepsOffsets.of_forall₂ hmasks

/-- Where the trivia among some tokens starts and stops, given the offset of the first token. -/
def triviaRanges (offset : Nat) : List ByteToken → List (Nat × Nat)
  | [] => []
  | .trivia _ bytes :: rest =>
    (offset, offset + bytes.length) :: triviaRanges (offset + bytes.length) rest
  | .code _ :: rest => triviaRanges (offset + 1) rest

theorem triviaRanges_code (offset : Nat) (bytes : List UInt8) (tokens : List ByteToken) :
    triviaRanges offset (bytes.map .code ++ tokens) =
      triviaRanges (offset + bytes.length) tokens := by
  induction bytes generalizing offset with
  | nil => rfl
  | cons b bytes ih =>
      rw [List.map_cons, List.cons_append, triviaRanges, ih, List.length_cons, Nat.add_assoc,
        Nat.add_comm 1]

/-- Trivia starts and stops between characters, and it is not empty. -/
theorem exists_of_mem_triviaRanges (before text : List Char) (range : Nat × Nat)
    (h : range ∈ triviaRanges (byteLength before) ((cut before text).flatMap Token.inBytes)) :
    ∃ front piece behind, before.reverse ++ text = front ++ (piece ++ behind) ∧ piece ≠ [] ∧
      range = (byteLength front, byteLength (front ++ piece)) := by
  fun_induction cut before text with
  | case1 => cases h
  | case2 before c rest ih =>
      have happend := firstToken_append before c rest
      have hne := firstToken_text_ne_nil before c rest
      rw [byteLength_append, byteLength_reverse, List.reverse_append, List.reverse_reverse,
        List.append_assoc, happend, Nat.add_comm] at ih
      rw [List.flatMap_cons] at h
      cases hfirst : (firstToken before c rest).1 with
      | trivia kind piece =>
          rw [hfirst] at h happend hne ih
          rcases List.mem_cons.1 h with rfl | hlater
          · refine ⟨before.reverse, piece, _, by rw [← happend]; rfl, hne, ?_⟩
            rw [byteLength_append, byteLength_reverse, length_utf8Bytes]
          · rw [length_utf8Bytes] at hlater
            exact ih hlater
      | code d =>
          rw [hfirst] at h ih
          rw [Token.inBytes, triviaRanges_code, String.length_utf8EncodeChar] at h
          exact ih h

/-- Trivia is not empty, lies in bounds, and starts and stops at character boundaries. -/
theorem bounds_of_mem_triviaRanges (text : String) (range : Nat × Nat)
    (h : range ∈ triviaRanges 0 ((cut [] text.toList).flatMap Token.inBytes)) :
    range.1 < range.2 ∧ range.2 ≤ text.utf8ByteSize ∧ IsBoundary text range.1 ∧
      IsBoundary text range.2 := by
  obtain ⟨front, piece, behind, htext, hne, rfl⟩ := exists_of_mem_triviaRanges [] _ range h
  have hcut : text.toList = (front ++ piece) ++ behind := by simpa using htext
  have hpos := byteLength_pos piece hne
  refine ⟨?_, ?_, ?_, ?_⟩
  · rw [byteLength_append]
    omega
  · rw [utf8ByteSize_eq, hcut, byteLength_append (front ++ piece)]
    omega
  · exact (isBoundary_iff text _).2 ⟨front, piece ++ behind, htext, rfl⟩
  · exact (isBoundary_iff text _).2 ⟨front ++ piece, behind, hcut, rfl⟩

/-- Whether a range of some bytes lies in bounds and a text can be read from it. -/
structure HoldsText (bytes : List UInt8) (start stop : Nat) (text : List Char) : Prop where
  start_le : start ≤ stop
  stop_le : stop ≤ bytes.length
  decodes : String.fromUTF8? (bytes.extract start stop).toByteArray = some (String.ofList text)

/-- The bytes of a text are read as the text. -/
theorem fromUTF8?_utf8Bytes (text : List Char) :
    String.fromUTF8? (utf8Bytes text).toByteArray = some (String.ofList text) := by
  rw [String.fromUTF8?, dif_pos (isValidUTF8_utf8Bytes text)]
  rfl

theorem extract_append (front piece back : List UInt8) :
    (front ++ (piece ++ back)).extract front.length (front.length + piece.length) = piece := by
  rw [List.extract, List.drop_left, Nat.add_sub_cancel_left, List.take_left]

theorem holdsText_append (front : List UInt8) (text : List Char) (back : List UInt8) :
    HoldsText (front ++ (utf8Bytes text ++ back)) front.length
      (front.length + byteLength text) text := by
  refine ⟨by omega, ?_, ?_⟩
  · simp only [List.length_append, length_utf8Bytes]
    omega
  · rw [← length_utf8Bytes, extract_append]
    exact fromUTF8?_utf8Bytes text

/-- A segment of a body in bytes: where it starts and stops, and what ends it. -/
structure SegmentRange where
  start : Nat
  stop : Nat
  terminator : Terminator
  deriving DecidableEq, Repr

/-- Walk a body in bytes at a given depth of inner blocks, `start` being where the current segment
starts and `place` where the bytes do. -/
def segmentRanges (depth start place : Nat) : List UInt8 → List SegmentRange
  | [] => []
  | b :: rest =>
    if b = '\x7b'.toUInt8 then
      if depth = 0 then
        { start, stop := place, terminator := .brace } :: segmentRanges 1 start (place + 1) rest
      else segmentRanges (depth + 1) start (place + 1) rest
    else if b = '\x7d'.toUInt8 then
      if depth = 0 then []
      else segmentRanges (depth - 1) (if depth = 1 then place + 1 else start) (place + 1) rest
    else if b = ';'.toUInt8 ∧ depth = 0 then
      { start, stop := place, terminator := .semicolon } ::
        segmentRanges 0 (place + 1) (place + 1) rest
    else segmentRanges depth start (place + 1) rest

/-- Whether a segment can be read from its range. -/
def HoldsSegment (bytes : List UInt8) (range : SegmentRange) (segment : Segment) : Prop :=
  HoldsText bytes range.start range.stop segment.text ∧ range.terminator = segment.terminator

section SegmentRangeSteps

variable (depth start place : Nat) (rest : List UInt8)

theorem segmentRanges_zero_open :
    segmentRanges 0 start place (String.utf8EncodeChar '\x7b' ++ rest) =
      { start, stop := place, terminator := .brace } :: segmentRanges 1 start (place + 1) rest := by
  change segmentRanges 0 start place ('\x7b'.toUInt8 :: rest) = _
  rw [segmentRanges, if_pos rfl, if_pos rfl]

theorem segmentRanges_succ_open :
    segmentRanges (depth + 1) start place (String.utf8EncodeChar '\x7b' ++ rest) =
      segmentRanges (depth + 2) start (place + 1) rest := by
  change segmentRanges (depth + 1) start place ('\x7b'.toUInt8 :: rest) = _
  rw [segmentRanges, if_pos rfl, if_neg (Nat.succ_ne_zero depth)]

theorem segmentRanges_zero_close :
    segmentRanges 0 start place (String.utf8EncodeChar '\x7d' ++ rest) = [] := by
  change segmentRanges 0 start place ('\x7d'.toUInt8 :: rest) = _
  rw [segmentRanges, if_neg (by decide), if_pos rfl, if_pos rfl]

theorem segmentRanges_succ_close :
    segmentRanges (depth + 1) start place (String.utf8EncodeChar '\x7d' ++ rest) =
      segmentRanges depth (if depth = 0 then place + 1 else start) (place + 1) rest := by
  change segmentRanges (depth + 1) start place ('\x7d'.toUInt8 :: rest) = _
  rw [segmentRanges, if_neg (by decide), if_pos rfl, if_neg (Nat.succ_ne_zero depth)]
  simp

theorem segmentRanges_zero_semicolon :
    segmentRanges 0 start place (String.utf8EncodeChar ';' ++ rest) =
      { start, stop := place, terminator := .semicolon } ::
        segmentRanges 0 (place + 1) (place + 1) rest := by
  change segmentRanges 0 start place (';'.toUInt8 :: rest) = _
  rw [segmentRanges, if_neg (by decide), if_neg (by decide), if_pos ⟨rfl, rfl⟩]

/-- Other characters are passed over. -/
theorem segmentRanges_other (c : Char) (hc : c ≠ '\x7b' ∧ c ≠ '\x7d')
    (hend : depth = 0 → c ≠ ';') :
    segmentRanges depth start place (String.utf8EncodeChar c ++ rest) =
      segmentRanges depth start (place + c.utf8Size) rest := by
  have hall : ∀ b ∈ String.utf8EncodeChar c, b ≠ '\x7b'.toUInt8 ∧ b ≠ '\x7d'.toUInt8 ∧
      ¬ (b = ';'.toUInt8 ∧ depth = 0) := by
    intro b hb
    refine ⟨ne_of_mem_utf8EncodeChar _ c (by decide) hc.1 b hb,
      ne_of_mem_utf8EncodeChar _ c (by decide) hc.2 b hb, ?_⟩
    rintro ⟨hsemicolon, hdepth⟩
    exact ne_of_mem_utf8EncodeChar _ c (by decide) (hend hdepth) b hb hsemicolon
  rw [← String.length_utf8EncodeChar c]
  generalize String.utf8EncodeChar c = bytes at hall ⊢
  induction bytes generalizing place with
  | nil => rfl
  | cons b bytes ih =>
      obtain ⟨hopen, hclose, hsemicolon⟩ := hall b (by simp)
      rw [List.cons_append, segmentRanges, if_neg hopen, if_neg hclose, if_neg hsemicolon,
        ih _ fun d hd => hall d (by simp [hd]), List.length_cons, Nat.add_assoc, Nat.add_comm 1]

end SegmentRangeSteps

/-- The segments of a body can be read from their ranges. At the top level the current segment is
what stands between its start and the place of the walk. -/
theorem forall₂_holdsSegment (bytes passed : List UInt8) (depth start offset : Nat)
    (segment text : List Char) (hbytes : bytes = passed ++ utf8Bytes text)
    (hstart : depth = 0 →
      ∃ front, passed = front ++ utf8Bytes segment.reverse ∧ start = front.length) :
    List.Forall₂ (HoldsSegment bytes) (segmentRanges depth start passed.length (utf8Bytes text))
      (walk depth segment offset text).segments := by
  induction text generalizing passed depth start offset segment with
  | nil =>
      rw [walk_nil]
      exact .nil
  | cons c rest ih =>
      have hpassed : bytes = (passed ++ String.utf8EncodeChar c) ++ utf8Bytes rest := by
        rw [hbytes, utf8Bytes_cons, List.append_assoc]
      have hplace : (passed ++ String.utf8EncodeChar c).length = passed.length + c.utf8Size := by
        rw [List.length_append, String.length_utf8EncodeChar]
      have hread : depth = 0 → HoldsText bytes start passed.length segment.reverse := by
        intro hdepth
        obtain ⟨front, rfl, rfl⟩ := hstart hdepth
        rw [hbytes, List.append_assoc, List.length_append, length_utf8Bytes]
        exact holdsText_append front segment.reverse _
      have hfresh : ∃ front, passed ++ String.utf8EncodeChar c =
          front ++ utf8Bytes ([] : List Char).reverse ∧ passed.length + c.utf8Size = front.length :=
        ⟨_, (List.append_nil _).symm, hplace.symm⟩
      have hrest := fun depth' start' segment' => ih _ depth' start' (offset + c.utf8Size) segment'
        hpassed
      rw [hplace] at hrest
      rw [utf8Bytes_cons]
      rcases brace_cases c with rfl | rfl | hc
      · cases depth with
        | zero =>
            rw [segmentRanges_zero_open, walk_zero_open]
            exact .cons ⟨hread rfl, rfl⟩ (hrest 1 start [] (by simp))
        | succ inner =>
            rw [segmentRanges_succ_open, walk_succ_open]
            exact hrest (inner + 2) start [] (by simp)
      · cases depth with
        | zero =>
            rw [segmentRanges_zero_close, walk_zero_close]
            exact .nil
        | succ inner =>
            rw [segmentRanges_succ_close, walk_succ_close]
            refine hrest inner _ [] ?_
            rintro rfl
            exact hfresh
      · cases depth with
        | zero =>
            by_cases hend : c = ';'
            · subst hend
              rw [segmentRanges_zero_semicolon, walk_zero_semicolon]
              exact .cons ⟨hread rfl, rfl⟩ (hrest 0 _ [] fun _ => hfresh)
            · rw [segmentRanges_other _ _ _ _ c hc fun _ => hend, walk_zero_other _ _ _ c hc hend]
              refine hrest 0 start (c :: segment) ?_
              intro _
              obtain ⟨front, rfl, rfl⟩ := hstart rfl
              exact ⟨front, by simp, rfl⟩
        | succ inner =>
            rw [segmentRanges_other _ _ _ _ c hc (by simp), walk_succ_other _ _ _ inner c hc]
            exact hrest (inner + 1) start [] (by simp)

/-- A class with a body has an opening brace behind its header, no stop stands between them, and the
walk through the body starts behind the brace. -/
theorem exists_opening (masked : List Char) (header : Header) (bodyOpen : Nat)
    (hheader : header ∈ headers [] 0 masked) (hopen : header.outline.bodyOpen = some bodyOpen) :
    ∃ front gap inside, masked = front ++ (gap ++ '\x7b' :: inside) ∧
      byteLength front = header.endOffset ∧ (∀ c ∈ gap, isStop c = false) ∧
      bodyOpen = byteLength (front ++ gap) ∧ header.outline = .ofBody header.name
        header.keywordOffset bodyOpen (walk 0 [] (bodyOpen + 1) inside) := by
  cases hfind : findOpen? header.endOffset header.rest with
  | none =>
      rw [header.outline_of_none hfind] at hopen
      cases hopen
  | some opened =>
      obtain ⟨place, inside⟩ := opened
      have houtline := header.outline_of_some place inside hfind
      rw [houtline] at hopen
      obtain rfl : place = bodyOpen := Option.some.inj hopen
      obtain ⟨front, rfl, hend, -⟩ := exists_front_of_mem_headers [] 0 masked header hheader
      obtain ⟨gap, hrest, hgap, hplace⟩ := findOpen?_eq_some _ _ _ _ hfind
      have hfront : byteLength front = header.endOffset := by omega
      refine ⟨front, gap, inside, by rw [hrest], hfront, hgap, ?_, houtline⟩
      rw [hplace, byteLength_append, hfront]

theorem getElem?_utf8Bytes (front back : List Char) (a : Char) (ha : isAscii a = true) :
    (utf8Bytes (front ++ a :: back))[byteLength front]? = some a.toUInt8 := by
  rw [utf8Bytes_append, utf8Bytes_cons, utf8EncodeChar_of_isAscii a ha, ← length_utf8Bytes]
  simp

/-- A sign of code in the masked text stands at the same place in the text. -/
theorem getElem?_of_mask (text front back : List Char) (a : Char) (ha : isAscii a = true)
    (hspace : a ≠ ' ') (h : mask text = front ++ a :: back) :
    (utf8Bytes text)[byteLength front]? = some a.toUInt8 := by
  apply (keepsOffsets_mask text).agrees
  · rw [h]
    exact getElem?_utf8Bytes front back a ha
  · intro hsame
    exact hspace (toUInt8_inj_of_isAscii a ' ' ha (by decide) hsame)

/-- A sign of the first 128 code points that is found at an offset is a character there. -/
theorem exists_append_of_getElem? (text : List Char) (place : Nat) (a : Char)
    (ha : isAscii a = true) (h : (utf8Bytes text)[place]? = some a.toUInt8) :
    ∃ before after, text = before ++ a :: after ∧ byteLength before = place := by
  obtain ⟨hlt, hget⟩ := List.getElem?_eq_some_iff.1 h
  have hsplit : utf8Bytes text = (utf8Bytes text).take place ++
      a.toUInt8 :: (utf8Bytes text).drop (place + 1) := by
    rw [← hget, ← List.drop_eq_getElem_cons hlt, List.take_append_drop]
  obtain ⟨before, after, htext, hbefore, -⟩ := exists_of_utf8Bytes_eq _ a _ _ ha hsplit
  refine ⟨before, after, htext, ?_⟩
  rw [← length_utf8Bytes, hbefore, List.length_take]
  omega

theorem isBoundary_of_getElem? (text : String) (place : Nat) (a : Char) (ha : isAscii a = true)
    (h : (utf8Bytes text.toList)[place]? = some a.toUInt8) : IsBoundary text place := by
  obtain ⟨before, after, htext, hplace⟩ := exists_append_of_getElem? _ place a ha h
  exact (isBoundary_iff text place).2 ⟨before, a :: after, htext, hplace⟩

/-- Whether an outline shows what is read at a header from masked bytes: the name from the range
that ends the header, and the members from the segments of the body. -/
structure ReadsFrom (masked : List UInt8) (header : Header) (found : ClassOutline) : Prop where
  name_read : ∃ start, header.keywordOffset < start ∧
    HoldsText masked start header.endOffset found.name.toList
  members_read : ∀ bodyOpen ∈ found.bodyOpen, ∃ segments,
    List.Forall₂ (HoldsSegment masked)
      (segmentRanges 0 (bodyOpen + 1) (bodyOpen + 1) (masked.drop (bodyOpen + 1))) segments ∧
    found.properties = properties (segments.filterMap Segment.declared?) ∧
    found.hasToString = (segments.filterMap Segment.declared?).contains .toStringOverride

theorem Header.outline_keywordOffset (header : Header) :
    header.outline.keywordOffset = header.keywordOffset := by
  unfold Header.outline
  split <;> rfl

theorem Header.FoundIn.holdsText_name {masked : List Char} {header : Header}
    (h : header.FoundIn 0 masked) : ∃ start, header.keywordOffset < start ∧
      HoldsText (utf8Bytes masked) start header.endOffset header.name := by
  obtain ⟨front, found, rfl, -, rfl⟩ := h
  have hclass : byteLength classWord = 5 := by decide
  refine ⟨(utf8Bytes (front ++ classWord ++ found.gap)).length, ?_, ?_⟩
  · simp only [length_utf8Bytes, byteLength_append, hclass]
    omega
  · have hholds := holdsText_append (utf8Bytes (front ++ classWord ++ found.gap)) found.name
      (utf8Bytes found.rest)
    simpa [HeaderMatch.text, Nat.add_assoc] using hholds

theorem readsFrom_outline (masked : List Char) (header : Header)
    (hheader : header ∈ headers [] 0 masked) :
    ReadsFrom (utf8Bytes masked) header header.outline := by
  constructor
  · rw [header.outline_name, String.toList_ofList]
    exact (foundIn_of_mem_headers [] 0 masked header hheader).holdsText_name
  · intro bodyOpen hopen
    obtain ⟨front, gap, inside, rfl, -, -, rfl, houtline⟩ :=
      exists_opening masked header bodyOpen hheader hopen
    rw [houtline]
    refine ⟨(walk 0 [] _ inside).segments, ?_, rfl, rfl⟩
    have hpassed : (utf8Bytes (front ++ gap ++ ['\x7b'])).length =
        byteLength (front ++ gap) + 1 := by
      rw [length_utf8Bytes, byteLength_append]
      rfl
    have hbytes : utf8Bytes (front ++ (gap ++ '\x7b' :: inside)) =
        utf8Bytes (front ++ gap ++ ['\x7b']) ++ utf8Bytes inside := by
      rw [← utf8Bytes_append]
      simp
    rw [← hpassed, hbytes, List.drop_left]
    apply forall₂_holdsSegment _ _ _ _ _ _ _ rfl
    intro _
    exact ⟨_, (List.append_nil _).symm, rfl⟩

/-- Masking keeps offsets and encoding. The bytes of a text have one cut into tokens; each piece of
trivia starts and stops between characters and is not empty. The masked tokens stand for the bytes
of the text place by place, and the mask of the text is read from them. Each header gives a class,
and its name and the segments of its body are read from ranges of these bytes. A body closes at a
character boundary. -/
theorem mask_keeps_encoding (text : String) :
    ∃ tokens, (∀ tokens', Lexes [] (utf8Bytes text.toList) tokens' ↔ tokens' = tokens) ∧
      (∀ range ∈ triviaRanges 0 tokens, range.1 < range.2 ∧ range.2 ≤ text.utf8ByteSize ∧
        IsBoundary text range.1 ∧ IsBoundary text range.2) ∧
      KeepsOffsets (tokens.flatMap ByteToken.masked) (utf8Bytes text.toList) ∧
      String.fromUTF8? (tokens.flatMap ByteToken.masked).toByteArray =
        some (String.ofList (mask text.toList)) ∧
      List.Forall₂ (ReadsFrom (tokens.flatMap ByteToken.masked))
        (headers [] 0 (mask text.toList)) (outline text) ∧
      ∀ found ∈ outline text, ∀ bodyClose ∈ found.bodyClose, IsBoundary text bodyClose := by
  have hlexes := lexes_cut [] text.toList
  refine ⟨(cut [] text.toList).flatMap Token.inBytes, ?_⟩
  rw [← utf8Bytes_mask]
  refine ⟨?_, ?_, keepsOffsets_mask text.toList, fromUTF8?_utf8Bytes _, ?_, ?_⟩
  · intro tokens'
    constructor
    · intro htokens
      exact htokens.unique hlexes
    · rintro rfl
      exact hlexes
  · exact bounds_of_mem_triviaRanges text
  · rw [outline, outlineChars, List.forall₂_map_right_iff, List.forall₂_same]
    intro header hheader
    exact readsFrom_outline _ header hheader
  · intro found hfound bodyClose hclose
    obtain ⟨front, inside, behind, hbody⟩ :=
      exists_hasBody (mask text.toList) found bodyClose hfound hclose
    obtain rfl := Option.some.inj (hclose.symm.trans hbody.close_eq)
    apply isBoundary_of_getElem? text _ '\x7d' (by decide)
    apply getElem?_of_mask text.toList _ behind '\x7d' (by decide) (by decide)
    rw [hbody.masked_eq]
    simp

end RecordText.Source
