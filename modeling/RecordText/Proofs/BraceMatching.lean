import RecordText.Proofs.MaskedOffsets
import Mathlib.Order.Bounds.Basic

/-!
# Matching braces in bytes

A body closes at the first place behind its opening brace where the closing
braces outnumber the opening ones. This is a statement on counts of bytes, so
it can be compared between bodies that are found apart from each other: two
bodies are the same, stand side by side, or one lies inside the other.

## Main statements

* `isLeast_outnumbered`: the brace that closes a body at depth zero is the first
  place where closing braces outnumber opening ones.
* `bodyClose_lt_of_open_between`: a body that opens inside another one closes
  inside it.
* `bodies_are_laminar`: the places of all classes of a text.

## Implementation notes

Counts between two places are differences of counts up to a place, which turns
the comparison of two bodies into linear arithmetic.
-/

namespace RecordText.Source

open RecordText.Text

/-- Whether closing braces outnumber opening braces behind an opening brace up to a place. -/
def Outnumbered (masked : List UInt8) (bodyOpen place : Nat) : Prop :=
  bodyOpen < place ∧ place < masked.length ∧
    (masked.extract (bodyOpen + 1) (place + 1)).count '\x7b'.toUInt8 <
      (masked.extract (bodyOpen + 1) (place + 1)).count '\x7d'.toUInt8

section Counts

theorem count_utf8EncodeChar (a c : Char) (ha : isAscii a = true) (hc : c ≠ a) :
    (String.utf8EncodeChar c).count a.toUInt8 = 0 := by
  apply List.count_eq_zero.2
  intro hmem
  exact ne_of_mem_utf8EncodeChar a c ha hc _ hmem rfl

/-- A text that leaves a body at some depth opens as many blocks more than it closes. -/
theorem count_of_depthAfter (depth behind : Nat) (text : List Char)
    (h : depthAfter depth text = some behind) :
    (utf8Bytes text).count '\x7d'.toUInt8 + behind =
      (utf8Bytes text).count '\x7b'.toUInt8 + depth := by
  induction text generalizing depth with
  | nil =>
      obtain rfl : depth = behind := by simpa using h
      rfl
  | cons c rest ih =>
      rw [utf8Bytes_cons, List.count_append, List.count_append]
      rcases brace_cases c with rfl | rfl | hc
      · rw [depthAfter_open] at h
        have hrest := ih _ h
        have hopen : (String.utf8EncodeChar '\x7b').count '\x7b'.toUInt8 = 1 := by decide
        have hclose : (String.utf8EncodeChar '\x7b').count '\x7d'.toUInt8 = 0 := by decide
        omega
      · cases depth with
        | zero => simp at h
        | succ inner =>
            rw [depthAfter_close_succ] at h
            have hrest := ih _ h
            have hopen : (String.utf8EncodeChar '\x7d').count '\x7b'.toUInt8 = 0 := by decide
            have hclose : (String.utf8EncodeChar '\x7d').count '\x7d'.toUInt8 = 1 := by decide
            omega
      · rw [depthAfter_other _ _ _ hc] at h
        have hrest := ih _ h
        have hopen := count_utf8EncodeChar '\x7b' c (by decide) hc.1
        have hclose := count_utf8EncodeChar '\x7d' c (by decide) hc.2
        omega

/-- The first bytes of a text hold the same signs as its first characters. -/
theorem exists_front_of_prefix (text : List Char) (piece : List UInt8)
    (hpiece : piece <+: utf8Bytes text) :
    ∃ front, front <+: text ∧ ∀ a, isAscii a = true →
      piece.count a.toUInt8 = (utf8Bytes front).count a.toUInt8 := by
  induction text generalizing piece with
  | nil =>
      obtain rfl : piece = [] := List.prefix_nil.1 hpiece
      exact ⟨[], List.nil_prefix, fun _ _ => rfl⟩
  | cons c rest ih =>
      obtain ⟨behind, hsplit⟩ := hpiece
      rw [utf8Bytes_cons] at hsplit
      rcases List.append_eq_append_iff.1 hsplit with ⟨more, hform, -⟩ | ⟨more, rfl, hrest⟩
      · cases hc : isAscii c with
        | true =>
            rw [utf8EncodeChar_of_isAscii c hc, eq_comm, List.append_eq_singleton_iff] at hform
            rcases hform with ⟨rfl, -⟩ | ⟨rfl, -⟩
            · exact ⟨[], List.nil_prefix, fun _ _ => rfl⟩
            · refine ⟨[c], ⟨rest, rfl⟩, ?_⟩
              intro a _
              rw [utf8Bytes_cons, utf8EncodeChar_of_isAscii c hc]
              rfl
        | false =>
            refine ⟨[], List.nil_prefix, ?_⟩
            intro a ha
            rw [utf8Bytes_nil, List.count_nil, List.count_eq_zero]
            intro hmem
            have hsame := eq_of_mem_utf8EncodeChar a c ha (by rw [hform]; simp [hmem])
            rw [hsame, ha] at hc
            cases hc
      · obtain ⟨front, ⟨back, rfl⟩, hcount⟩ := ih more ⟨behind, hrest.symm⟩
        refine ⟨c :: front, ⟨back, rfl⟩, ?_⟩
        intro a ha
        rw [utf8Bytes_cons, List.count_append, List.count_append, hcount a ha]

/-- A text that leaves a body open never closes more blocks than there are. -/
theorem count_le_of_prefix (depth behind : Nat) (text : List Char)
    (h : depthAfter depth text = some behind) (piece : List UInt8)
    (hpiece : piece <+: utf8Bytes text) :
    piece.count '\x7d'.toUInt8 ≤ piece.count '\x7b'.toUInt8 + depth := by
  obtain ⟨front, ⟨back, rfl⟩, hcount⟩ := exists_front_of_prefix text piece hpiece
  rw [depthAfter_append] at h
  obtain ⟨between, hfront, -⟩ := Option.bind_eq_some_iff.1 h
  have hsum := count_of_depthAfter depth between front hfront
  have hopen := hcount '\x7b' (by decide)
  have hclose := hcount '\x7d' (by decide)
  omega

/-- Bytes between two places are counted as a difference. -/
theorem count_extract (bytes : List UInt8) (b : UInt8) (start stop : Nat) (h : start ≤ stop) :
    (bytes.take start).count b + (bytes.extract start stop).count b =
      (bytes.take stop).count b := by
  rw [List.extract, ← List.count_append, ← List.take_add, Nat.add_sub_cancel' h]

/-- One byte more is counted if it is the one that is looked for. -/
theorem count_take_succ (bytes : List UInt8) (place : Nat) (a b : UInt8)
    (h : bytes[place]? = some a) :
    (bytes.take (place + 1)).count b = (bytes.take place).count b + if a = b then 1 else 0 := by
  rw [List.take_add_one, h, List.count_append]
  simp [List.count_singleton]

theorem outnumbered_iff (masked : List UInt8) (bodyOpen place : Nat) :
    Outnumbered masked bodyOpen place ↔ bodyOpen < place ∧ place < masked.length ∧
      (masked.take (place + 1)).count '\x7b'.toUInt8 +
          (masked.take (bodyOpen + 1)).count '\x7d'.toUInt8 <
        (masked.take (place + 1)).count '\x7d'.toUInt8 +
          (masked.take (bodyOpen + 1)).count '\x7b'.toUInt8 := by
  unfold Outnumbered
  apply and_congr_right
  intro hlt
  apply and_congr_right
  intro _
  have hopen := count_extract masked '\x7b'.toUInt8 (bodyOpen + 1) (place + 1) (by omega)
  have hclose := count_extract masked '\x7d'.toUInt8 (bodyOpen + 1) (place + 1) (by omega)
  omega

end Counts

/-- A body that opens inside another one closes inside it: one place before the outer body closes,
the closing braces are already too many for the inner one. -/
theorem bodyClose_lt_of_open_between (masked : List UInt8)
    (bodyOpen bodyClose bodyOpen' bodyClose' : Nat)
    (hclose : masked[bodyClose]? = some '\x7d'.toUInt8)
    (hopen' : masked[bodyOpen']? = some '\x7b'.toUInt8)
    (hleast : IsLeast { place | Outnumbered masked bodyOpen place } bodyClose)
    (hleast' : IsLeast { place | Outnumbered masked bodyOpen' place } bodyClose')
    (hafter : bodyOpen < bodyOpen') (hbefore : bodyOpen' < bodyClose) :
    bodyClose' < bodyClose := by
  have hinner : (masked.take bodyOpen').count '\x7d'.toUInt8 +
        (masked.take (bodyOpen + 1)).count '\x7b'.toUInt8 ≤
      (masked.take bodyOpen').count '\x7b'.toUInt8 +
        (masked.take (bodyOpen + 1)).count '\x7d'.toUInt8 := by
    obtain ⟨last, rfl⟩ : ∃ last, bodyOpen' = last + 1 := ⟨bodyOpen' - 1, by omega⟩
    by_contra hmore
    rcases Nat.eq_or_lt_of_le (Nat.le_of_lt_succ hafter) with rfl | hlt
    · omega
    · have hplace : Outnumbered masked bodyOpen last := by
        have hlast := ((outnumbered_iff ..).1 hleast.1).2.1
        exact (outnumbered_iff ..).2 ⟨hlt, by omega, by omega⟩
      have hle := hleast.2 hplace
      omega
  obtain ⟨-, hlength, hcount⟩ := (outnumbered_iff ..).1 hleast.1
  have hopens := count_take_succ masked bodyOpen' _ '\x7b'.toUInt8 hopen'
  have hcloses := count_take_succ masked bodyOpen' _ '\x7d'.toUInt8 hopen'
  have hopens' := count_take_succ masked bodyClose _ '\x7b'.toUInt8 hclose
  have hcloses' := count_take_succ masked bodyClose _ '\x7d'.toUInt8 hclose
  rw [if_pos rfl] at hopens hcloses'
  rw [if_neg (by decide)] at hcloses hopens'
  obtain ⟨last, rfl⟩ : ∃ last, bodyClose = last + 1 := ⟨bodyClose - 1, by omega⟩
  rcases Nat.eq_or_lt_of_le (Nat.le_of_lt_succ hbefore) with rfl | hlt
  · omega
  · have hplace : Outnumbered masked bodyOpen' last :=
      (outnumbered_iff ..).2 ⟨hlt, by omega, by omega⟩
    exact Nat.lt_succ_of_le (hleast'.2 hplace)

/-- Behind an opening brace the counts are those of the first bytes. -/
theorem outnumbered_append_iff (front rest : List UInt8) (place : Nat) :
    Outnumbered (front ++ '\x7b'.toUInt8 :: rest) front.length place ↔
      ∃ passed, place = front.length + 1 + passed ∧ passed < rest.length ∧
        (rest.take (passed + 1)).count '\x7b'.toUInt8 <
          (rest.take (passed + 1)).count '\x7d'.toUInt8 := by
  have hextract : ∀ passed, (front ++ '\x7b'.toUInt8 :: rest).extract (front.length + 1)
      (front.length + 1 + passed + 1) = rest.take (passed + 1) := by
    intro passed
    have hlength : front.length + 1 + passed + 1 - (front.length + 1) = passed + 1 := by omega
    rw [List.extract, hlength, List.drop_length_add_append, List.drop_succ_cons, List.drop_zero]
  constructor
  · rintro ⟨hlt, hlength, hcount⟩
    obtain ⟨passed, rfl⟩ := Nat.exists_eq_add_of_le (Nat.succ_le_of_lt hlt)
    rw [hextract] at hcount
    refine ⟨passed, rfl, ?_, hcount⟩
    simp only [List.length_append, List.length_cons] at hlength
    omega
  · rintro ⟨passed, rfl, hlength, hcount⟩
    refine ⟨by omega, ?_, by rwa [hextract]⟩
    simp only [List.length_append, List.length_cons]
    omega

/-- A body that is not closed has no place where closing braces outnumber opening ones. -/
theorem not_outnumbered (front : List UInt8) (inside : List Char) (behind : Nat)
    (h : depthAfter 0 inside = some behind) (place : Nat) :
    ¬ Outnumbered (front ++ '\x7b'.toUInt8 :: utf8Bytes inside) front.length place := by
  rw [outnumbered_append_iff]
  rintro ⟨passed, rfl, -, hcount⟩
  have hle := count_le_of_prefix 0 behind inside h _ (List.take_prefix (passed + 1) _)
  omega

/-- The brace that closes a body at depth zero is the first place where closing braces outnumber
opening ones. -/
theorem isLeast_outnumbered (front behind : List UInt8) (inside : List Char)
    (h : depthAfter 0 inside = some 0) :
    IsLeast { place | Outnumbered
        (front ++ '\x7b'.toUInt8 :: (utf8Bytes inside ++ '\x7d'.toUInt8 :: behind))
        front.length place }
      (front.length + 1 + byteLength inside) := by
  constructor
  · refine (outnumbered_append_iff ..).2 ⟨byteLength inside, rfl, by simp, ?_⟩
    have hsum := count_of_depthAfter 0 0 inside h
    have hopen : ['\x7d'.toUInt8].count '\x7b'.toUInt8 = 0 := by decide
    have hclose : ['\x7d'.toUInt8].count '\x7d'.toUInt8 = 1 := by decide
    rw [← length_utf8Bytes, List.take_length_add_append, List.take_succ_cons, List.take_zero,
      List.count_append, List.count_append]
    omega
  · intro place hplace
    obtain ⟨passed, rfl, -, hcount⟩ := (outnumbered_append_iff ..).1 hplace
    by_contra hlt
    have hshort : passed + 1 ≤ (utf8Bytes inside).length := by
      rw [length_utf8Bytes]
      omega
    rw [List.take_append_of_le_length hshort] at hcount
    have hle := count_le_of_prefix 0 0 inside h _ (List.take_prefix (passed + 1) _)
    omega

/-- A walk finds the first place where closing braces outnumber opening ones, if there is one. -/
theorem walk_close_cases (front : List UInt8) (inside : List Char) :
    ((walk 0 [] (front.length + 1) inside).close = none ∧ ∀ place,
      ¬ Outnumbered (front ++ '\x7b'.toUInt8 :: utf8Bytes inside) front.length place) ∨
    ∃ bodyClose, (walk 0 [] (front.length + 1) inside).close = some bodyClose ∧
      IsLeast { place | Outnumbered (front ++ '\x7b'.toUInt8 :: utf8Bytes inside)
        front.length place } bodyClose := by
  cases hdepth : depthAfter 0 inside with
  | some behind =>
      exact Or.inl ⟨walk_close_eq_none 0 behind [] _ inside hdepth,
        not_outnumbered front inside behind hdepth⟩
  | none =>
      obtain ⟨body, behind, rfl, hbody⟩ := exists_close_of_depthAfter_eq_none 0 inside hdepth
      refine Or.inr ⟨front.length + 1 + byteLength body, ?_, ?_⟩
      · rw [walk_close 0 [] _ body behind hbody]
      · rw [utf8Bytes_append, utf8Bytes_cons]
        exact isLeast_outnumbered front (utf8Bytes behind) body hbody

/-- Whether no brace and no semicolon stands among some bytes. -/
def NoStops (bytes : List UInt8) : Prop :=
  ∀ b ∈ bytes, b ≠ '\x7b'.toUInt8 ∧ b ≠ '\x7d'.toUInt8 ∧ b ≠ ';'.toUInt8

/-- Whether a class shows the places of its header and of its body in the bytes of a text and in the
masked bytes. -/
structure PlacedIn (bytes masked : List UInt8) (header : Header) (found : ClassOutline) : Prop where
  keyword_read : bytes.extract found.keywordOffset (found.keywordOffset + 5) = utf8Bytes classWord
  header_read : ∃ gap, gap ≠ [] ∧ (∀ c ∈ gap, isBlank c = true) ∧
    HoldsText masked found.keywordOffset header.endOffset (classWord ++ gap ++ found.name.toList)
  open_iff : ∀ bodyOpen, found.bodyOpen = some bodyOpen ↔
    header.endOffset ≤ bodyOpen ∧ masked[bodyOpen]? = some '\x7b'.toUInt8 ∧
      NoStops (masked.extract header.endOffset bodyOpen)
  open_read : ∀ bodyOpen ∈ found.bodyOpen, bytes[bodyOpen]? = some '\x7b'.toUInt8 ∧
    found.keywordOffset < bodyOpen
  close_iff : ∀ bodyOpen ∈ found.bodyOpen, ∀ bodyClose, found.bodyClose = some bodyClose ↔
    IsLeast { place | Outnumbered masked bodyOpen place } bodyClose
  close_none_iff : ∀ bodyOpen ∈ found.bodyOpen,
    found.bodyClose = none ↔ ∀ place, ¬ Outnumbered masked bodyOpen place
  close_read : ∀ bodyClose ∈ found.bodyClose, bytes[bodyClose]? = some '\x7d'.toUInt8 ∧
    bodyClose < bytes.length ∧ ∃ bodyOpen ∈ found.bodyOpen, bodyOpen < bodyClose

theorem Header.FoundIn.keyword_read {text : List Char} {header : Header}
    (h : header.FoundIn 0 (mask text)) :
    (utf8Bytes text).extract header.keywordOffset (header.keywordOffset + 5) =
      utf8Bytes classWord := by
  obtain ⟨front, found, hmask, -, rfl⟩ := h
  have hbytes : utf8Bytes (mask text) = utf8Bytes front ++
      (utf8Bytes classWord ++ utf8Bytes (found.gap ++ found.name ++ found.rest)) := by
    rw [hmask, HeaderMatch.text]
    simp
  have hmasked : (utf8Bytes (mask text)).extract (0 + byteLength front)
      (0 + byteLength front + 5) = utf8Bytes classWord := by
    rw [hbytes, Nat.zero_add, ← length_utf8Bytes]
    exact extract_append (utf8Bytes front) (utf8Bytes classWord) _
  rw [(keepsOffsets_mask text).extract_eq, hmasked]
  rw [hmasked]
  decide

theorem Header.FoundIn.header_read {masked : List Char} {header : Header}
    (h : header.FoundIn 0 masked) : ∃ gap, gap ≠ [] ∧ (∀ c ∈ gap, isBlank c = true) ∧
      HoldsText (utf8Bytes masked) header.keywordOffset header.endOffset
        (classWord ++ gap ++ header.name) := by
  obtain ⟨front, found, rfl, hform, rfl⟩ := h
  refine ⟨found.gap, hform.gap_ne_nil, hform.gap_blank, ?_⟩
  have hholds := holdsText_append (utf8Bytes front) found.text (utf8Bytes found.rest)
  simpa [HeaderMatch.text] using hholds

/-- The bytes of a text are no stops exactly if its characters are none. -/
theorem noStops_utf8Bytes_iff (text : List Char) :
    NoStops (utf8Bytes text) ↔ ∀ c ∈ text, isStop c = false := by
  constructor
  · intro h c hc
    have hne : ∀ stop, isAscii stop = true → stop.toUInt8 ∉ utf8Bytes text → c ≠ stop := by
      rintro stop hstop hmem rfl
      exact hmem ((mem_utf8Bytes_iff text c hstop).2 hc)
    have hopen := hne '\x7b' (by decide) fun hmem => (h _ hmem).1 rfl
    have hclose := hne '\x7d' (by decide) fun hmem => (h _ hmem).2.1 rfl
    have hend := hne ';' (by decide) fun hmem => (h _ hmem).2.2 rfl
    simp [isStop, hopen, hclose, hend]
  · intro h b hb
    have hne : ∀ stop, isAscii stop = true → isStop stop = true → b ≠ stop.toUInt8 := by
      rintro stop hascii hstop rfl
      rw [h stop ((mem_utf8Bytes_iff text stop hascii).1 hb)] at hstop
      cases hstop
    exact ⟨hne _ (by decide) (by decide), hne _ (by decide) (by decide),
      hne _ (by decide) (by decide)⟩

/-- The body of a class opens at the first stop behind the header, if this is an opening brace. -/
theorem bodyOpen_eq_some_iff (masked : List Char) (header : Header) (bodyOpen : Nat)
    (hheader : header ∈ headers [] 0 masked) :
    header.outline.bodyOpen = some bodyOpen ↔
      header.endOffset ≤ bodyOpen ∧ (utf8Bytes masked)[bodyOpen]? = some '\x7b'.toUInt8 ∧
        NoStops ((utf8Bytes masked).extract header.endOffset bodyOpen) := by
  have hextract : ∀ front gap rest : List Char, masked = front ++ (gap ++ rest) →
      byteLength front = header.endOffset →
      (utf8Bytes masked).extract header.endOffset (header.endOffset + byteLength gap) =
        utf8Bytes gap := by
    intro front gap rest hmasked hend
    rw [hmasked, utf8Bytes_append, utf8Bytes_append, ← hend, ← length_utf8Bytes,
      ← length_utf8Bytes, extract_append]
  constructor
  · intro hopen
    obtain ⟨front, gap, inside, hmasked, hend, hgap, rfl, -⟩ :=
      exists_opening masked header bodyOpen hheader hopen
    rw [byteLength_append, hend]
    refine ⟨Nat.le_add_right _ _, ?_, ?_⟩
    · rw [hmasked, ← hend, ← byteLength_append, ← List.append_assoc]
      exact getElem?_utf8Bytes (front ++ gap) inside '\x7b' (by decide)
    · rw [hextract front gap _ hmasked hend]
      exact (noStops_utf8Bytes_iff gap).2 hgap
  · rintro ⟨hle, hread, hstops⟩
    obtain ⟨front, hmasked, hend, -⟩ := exists_front_of_mem_headers [] 0 masked header hheader
    rw [Nat.zero_add] at hend
    obtain ⟨passed, rfl⟩ := Nat.exists_eq_add_of_le hle
    have hrest : (utf8Bytes header.rest)[passed]? = some '\x7b'.toUInt8 := by
      rw [hmasked, utf8Bytes_append, hend, ← length_utf8Bytes,
        List.getElem?_append_right (Nat.le_add_right _ _), Nat.add_sub_cancel_left] at hread
      exact hread
    obtain ⟨gap, inside, hcut, rfl⟩ := exists_append_of_getElem? _ passed _ (by decide) hrest
    rw [hcut] at hmasked
    rw [hextract front gap _ hmasked hend.symm, noStops_utf8Bytes_iff] at hstops
    have hfind : findOpen? header.endOffset header.rest =
        some (header.endOffset + byteLength gap, inside) := by
      rw [hcut, findOpen?_gap _ _ _ hstops, findOpen?, if_pos rfl]
    rw [header.outline_of_some _ _ hfind]
    rfl

section Opening

variable (text : List Char) (header : Header) (bodyOpen : Nat)
  (hheader : header ∈ headers [] 0 (mask text)) (hopen : header.outline.bodyOpen = some bodyOpen)

include hheader hopen

/-- The opening brace of a body stands in the text behind the keyword. -/
theorem bodyOpen_read : (utf8Bytes text)[bodyOpen]? = some '\x7b'.toUInt8 ∧
    header.keywordOffset < bodyOpen := by
  obtain ⟨-, -, -, hbefore⟩ := exists_front_of_mem_headers [] 0 (mask text) header hheader
  obtain ⟨hle, hread, -⟩ := (bodyOpen_eq_some_iff (mask text) header bodyOpen hheader).1 hopen
  refine ⟨(keepsOffsets_mask text).agrees bodyOpen _ hread (by decide), ?_⟩
  omega

/-- A body closes where closing braces outnumber opening ones for the first time, if they do. -/
theorem bodyClose_cases :
    (header.outline.bodyClose = none ∧
      ∀ place, ¬ Outnumbered (utf8Bytes (mask text)) bodyOpen place) ∨
    ∃ bodyClose, header.outline.bodyClose = some bodyClose ∧
      IsLeast { place | Outnumbered (utf8Bytes (mask text)) bodyOpen place } bodyClose := by
  obtain ⟨front, gap, inside, hmask, -, -, rfl, houtline⟩ :=
    exists_opening (mask text) header bodyOpen hheader hopen
  have hcases := walk_close_cases (utf8Bytes (front ++ gap)) inside
  have hbytes : utf8Bytes (mask text) =
      utf8Bytes (front ++ gap) ++ '\x7b'.toUInt8 :: utf8Bytes inside := by
    rw [hmask, ← List.append_assoc, utf8Bytes_append, utf8Bytes_cons]
    rfl
  rw [← hbytes, length_utf8Bytes] at hcases
  rw [houtline]
  exact hcases

end Opening

/-- What is found at a header is placed in the text. -/
theorem placedIn_outline (text : List Char) (header : Header)
    (hheader : header ∈ headers [] 0 (mask text)) :
    PlacedIn (utf8Bytes text) (utf8Bytes (mask text)) header header.outline := by
  have hfoundIn := foundIn_of_mem_headers [] 0 (mask text) header hheader
  constructor
  case keyword_read =>
    rw [header.outline_keywordOffset]
    exact hfoundIn.keyword_read
  case header_read =>
    rw [header.outline_keywordOffset, header.outline_name, String.toList_ofList]
    exact hfoundIn.header_read
  case open_iff =>
    intro bodyOpen
    exact bodyOpen_eq_some_iff (mask text) header bodyOpen hheader
  case open_read =>
    intro bodyOpen hopen
    rw [header.outline_keywordOffset]
    exact bodyOpen_read text header bodyOpen hheader hopen
  case close_iff =>
    intro bodyOpen hopen bodyClose
    rcases bodyClose_cases text header bodyOpen hheader hopen with
      ⟨hnone, hnot⟩ | ⟨place, hsome, hleast⟩
    · rw [hnone]
      exact iff_of_false (by simp) fun hleast => hnot _ hleast.1
    · rw [hsome, Option.some.injEq]
      constructor
      · rintro rfl
        exact hleast
      · intro hleast'
        exact hleast.unique hleast'
  case close_none_iff =>
    intro bodyOpen hopen
    rcases bodyClose_cases text header bodyOpen hheader hopen with
      ⟨hnone, hnot⟩ | ⟨place, hsome, hleast⟩
    · exact iff_of_true hnone hnot
    · rw [hsome]
      exact iff_of_false (by simp) fun hnot => hnot place hleast.1
  case close_read =>
    intro bodyClose hclose
    obtain ⟨front, inside, behind, hbody⟩ := exists_hasBody (mask text) header.outline bodyClose
      (List.mem_map_of_mem hheader) hclose
    obtain rfl := Option.some.inj (hclose.symm.trans hbody.close_eq)
    have hread : (utf8Bytes text)[byteLength (front ++ '\x7b' :: inside)]? =
        some '\x7d'.toUInt8 := by
      apply getElem?_of_mask text _ behind '\x7d' (by decide) (by decide)
      rw [hbody.masked_eq]
      simp
    refine ⟨hread, (List.getElem?_eq_some_iff.1 hread).1, byteLength front, hbody.open_eq, ?_⟩
    rw [byteLength_append, byteLength]
    have hpos := '\x7b'.utf8Size_pos
    omega

/-- Headers come in the order of their places. -/
theorem headers_pairwise (before : List Char) (offset : Nat) (text : List Char) :
    (headers before offset text).Pairwise fun header later =>
      header.keywordOffset < later.keywordOffset := by
  fun_induction headers before offset text with
  | case1 => exact List.Pairwise.nil
  | case2 before offset c rest hnone ih => exact ih
  | case3 before offset c rest found hfound endOffset later hdeclares ih =>
      refine List.Pairwise.cons ?_ ih
      intro header hlater
      obtain ⟨front, other, -, -, rfl⟩ := foundIn_of_mem_headers _ _ _ header hlater
      have hpos := found.byteLength_text_pos
      dsimp only
      omega
  | case4 before offset c rest found hfound endOffset later hdeclares ih => exact ih

/-- Whether a body has a pair of braces in masked bytes, the second one being the first place where
closing braces outnumber opening ones. -/
structure MatchesBraces (masked : List UInt8) (bodyOpen bodyClose : Nat) : Prop where
  open_read : masked[bodyOpen]? = some '\x7b'.toUInt8
  close_read : masked[bodyClose]? = some '\x7d'.toUInt8
  isLeast : IsLeast { place | Outnumbered masked bodyOpen place } bodyClose

/-- Of two bodies the one that opens first closes before the other one opens or behind its end. -/
theorem MatchesBraces.apart_or_around {masked : List UInt8}
    {bodyOpen bodyClose bodyOpen' bodyClose' : Nat} (h : MatchesBraces masked bodyOpen bodyClose)
    (h' : MatchesBraces masked bodyOpen' bodyClose') (hlt : bodyOpen < bodyOpen') :
    bodyClose < bodyOpen' ∨ bodyClose' < bodyClose := by
  rcases Nat.lt_trichotomy bodyClose bodyOpen' with hapart | rfl | hbetween
  · exact Or.inl hapart
  · have hne : '\x7d'.toUInt8 ≠ '\x7b'.toUInt8 := by decide
    exact absurd (Option.some.inj (h.close_read.symm.trans h'.open_read)) hne
  · exact Or.inr (bodyClose_lt_of_open_between masked bodyOpen bodyClose bodyOpen' bodyClose'
      h.close_read h'.open_read h.isLeast h'.isLeast hlt hbetween)

/-- A class whose body is closed has a pair of braces in the masked bytes. -/
theorem matchesBraces_outline (text : List Char) (found : ClassOutline) (bodyOpen bodyClose : Nat)
    (hfound : found ∈ outlineChars text) (hopen : found.bodyOpen = some bodyOpen)
    (hclose : found.bodyClose = some bodyClose) :
    MatchesBraces (utf8Bytes (mask text)) bodyOpen bodyClose := by
  obtain ⟨front, inside, behind, hbody⟩ := exists_hasBody (mask text) found bodyClose hfound hclose
  obtain rfl := Option.some.inj (hopen.symm.trans hbody.open_eq)
  obtain rfl := Option.some.inj (hclose.symm.trans hbody.close_eq)
  rw [hbody.masked_eq]
  constructor
  case open_read => exact getElem?_utf8Bytes front _ '\x7b' (by decide)
  case close_read =>
    have hread := getElem?_utf8Bytes (front ++ '\x7b' :: inside) behind '\x7d' (by decide)
    rwa [List.append_assoc] at hread
  case isLeast =>
    have hleast := isLeast_outnumbered (utf8Bytes front) (utf8Bytes behind) inside hbody.depth_eq
    rw [length_utf8Bytes, Nat.add_assoc] at hleast
    rw [byteLength_append, utf8Bytes_append, utf8Bytes_cons, utf8Bytes_append, utf8Bytes_cons]
    exact hleast

/-- Brace matching and nesting of bodies. The classes of a text come in the order of their keywords.
The keyword and the braces of a body stand in the text itself at the places shown, and no brace or
semicolon stands between a header and the opening brace. A body closes at the first place where
closing braces outnumber opening ones, and is not closed exactly if there is none. Two closed bodies
are the same, stand apart, or lie strictly inside each other. -/
theorem bodies_are_laminar (text : String) :
    ((outline text).Pairwise fun found later => found.keywordOffset < later.keywordOffset) ∧
      List.Forall₂ (PlacedIn (utf8Bytes text.toList) (utf8Bytes (mask text.toList)))
        (headers [] 0 (mask text.toList)) (outline text) ∧
      ∀ found ∈ outline text, ∀ other ∈ outline text,
        ∀ bodyOpen ∈ found.bodyOpen, ∀ bodyClose ∈ found.bodyClose,
        ∀ bodyOpen' ∈ other.bodyOpen, ∀ bodyClose' ∈ other.bodyClose,
          (bodyOpen = bodyOpen' ∧ bodyClose = bodyClose') ∨
          (bodyClose < bodyOpen' ∨ bodyClose' < bodyOpen) ∨
          (bodyOpen < bodyOpen' ∧ bodyClose' < bodyClose) ∨
          (bodyOpen' < bodyOpen ∧ bodyClose < bodyClose') := by
  refine ⟨?_, ?_, ?_⟩
  · rw [outline, outlineChars, List.pairwise_map]
    simp only [Header.outline_keywordOffset]
    exact headers_pairwise [] 0 (mask text.toList)
  · rw [outline, outlineChars, List.forall₂_map_right_iff, List.forall₂_same]
    exact placedIn_outline text.toList
  · intro found hfound other hother bodyOpen hopen bodyClose hclose bodyOpen' hopen' bodyClose'
      hclose'
    have hbody := matchesBraces_outline text.toList found bodyOpen bodyClose hfound hopen hclose
    have hbody' :=
      matchesBraces_outline text.toList other bodyOpen' bodyClose' hother hopen' hclose'
    rcases Nat.lt_trichotomy bodyOpen bodyOpen' with hlt | rfl | hlt
    · have := hbody.apart_or_around hbody' hlt
      omega
    · exact Or.inl ⟨rfl, hbody.isLeast.unique hbody'.isLeast⟩
    · have := hbody'.apart_or_around hbody hlt
      omega

end RecordText.Source
