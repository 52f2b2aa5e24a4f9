import RecordText.Text.Offset
import Mathlib.Data.List.Basic

/-!
# Texts in bytes

A text has a UTF-8 form, a list of bytes. Characters of the first 128 code
points are single bytes there, and no other character has such a byte in its
form. So a sign of that range that is found among the bytes is a character of
the text, and the bytes around it are the forms of the texts around it.

A byte offset is a character boundary exactly if the text can be cut in two
texts there.
-/

namespace RecordText.Text

/-- The bytes of a text in UTF-8. -/
def utf8Bytes (text : List Char) : List UInt8 :=
  text.flatMap String.utf8EncodeChar

@[simp] theorem utf8Bytes_nil : utf8Bytes [] = [] := rfl

@[simp] theorem utf8Bytes_cons (c : Char) (rest : List Char) :
    utf8Bytes (c :: rest) = String.utf8EncodeChar c ++ utf8Bytes rest :=
  List.flatMap_cons

@[simp] theorem utf8Bytes_append (front back : List Char) :
    utf8Bytes (front ++ back) = utf8Bytes front ++ utf8Bytes back :=
  List.flatMap_append

@[simp] theorem length_utf8Bytes (text : List Char) :
    (utf8Bytes text).length = byteLength text := by
  induction text with
  | nil => rfl
  | cons c rest ih => simp [byteLength, ih]

theorem byteLength_pos (text : List Char) (h : text ≠ []) : 0 < byteLength text := by
  cases text with
  | nil => exact absurd rfl h
  | cons c rest =>
      have hpos := c.utf8Size_pos
      rw [byteLength]
      omega

theorem byteLength_reverse (text : List Char) : byteLength text.reverse = byteLength text := by
  induction text with
  | nil => rfl
  | cons c rest ih =>
      rw [List.reverse_cons, byteLength_append, ih, byteLength, byteLength, byteLength]
      omega

/-- The bytes of a text are those of its string. -/
theorem toByteArray_utf8Bytes (text : String) :
    (utf8Bytes text.toList).toByteArray = text.toByteArray :=
  String.utf8Encode_toList

/-- Bytes that are those of a text are valid. -/
theorem isValidUTF8_utf8Bytes (text : List Char) : (utf8Bytes text).toByteArray.IsValidUTF8 :=
  ⟨text, rfl⟩

/-- Whether a character is one of the first 128 code points. -/
def isAscii (c : Char) : Bool :=
  c.toNat < 128

theorem isAscii_iff_utf8Size (c : Char) : isAscii c = true ↔ c.utf8Size = 1 := by
  rw [Char.utf8Size_eq_one_iff, UInt32.le_iff_toNat_le, isAscii, decide_eq_true_eq]
  exact Nat.lt_succ_iff

/-- A character of the first 128 code points is one byte. -/
theorem utf8EncodeChar_of_isAscii (c : Char) (h : isAscii c = true) :
    String.utf8EncodeChar c = [c.toUInt8] :=
  String.utf8EncodeChar_eq_singleton ((isAscii_iff_utf8Size c).1 h)

theorem toNat_toUInt8_of_isAscii (c : Char) (h : isAscii c = true) :
    c.toUInt8.toNat = c.toNat := by
  have hlt : c.toNat < 128 := by simpa [isAscii] using h
  change c.toNat % 256 = c.toNat
  exact Nat.mod_eq_of_lt (by omega)

theorem toUInt8_inj_of_isAscii (c d : Char) (hc : isAscii c = true) (hd : isAscii d = true)
    (h : c.toUInt8 = d.toUInt8) : c = d := by
  have hnat := congrArg UInt8.toNat h
  rw [toNat_toUInt8_of_isAscii c hc, toNat_toUInt8_of_isAscii d hd] at hnat
  exact Char.toNat_inj.1 hnat

/-- The bytes of any other character lie outside that range. -/
theorem le_of_mem_utf8EncodeChar (c : Char) (h : isAscii c = false) (b : UInt8)
    (hb : b ∈ String.utf8EncodeChar c) : 128 ≤ b.toNat := by
  have hval : ¬ c.val.toNat ≤ 127 := by
    have hnot : ¬ c.toNat < 128 := by simpa [isAscii] using h
    intro hle
    exact hnot (Nat.lt_succ_of_le hle)
  revert hb
  fun_cases String.utf8EncodeChar c with
  | case1 v hle => exact absurd hle hval
  | case2 v _ hle =>
      simp only [List.mem_cons, List.not_mem_nil, or_false]
      rintro (rfl | rfl) <;> simp only [UInt8.toNat_ofNat'] <;> omega
  | case3 v _ _ hle =>
      simp only [List.mem_cons, List.not_mem_nil, or_false]
      rintro (rfl | rfl | rfl) <;> simp only [UInt8.toNat_ofNat'] <;> omega
  | case4 v _ _ hle =>
      simp only [List.mem_cons, List.not_mem_nil, or_false]
      rintro (rfl | rfl | rfl | rfl) <;> simp only [UInt8.toNat_ofNat'] <;> omega

/-- A byte of the first 128 values in the form of a character is the whole form. -/
theorem eq_of_mem_utf8EncodeChar (a c : Char) (ha : isAscii a = true)
    (h : a.toUInt8 ∈ String.utf8EncodeChar c) : c = a := by
  cases hc : isAscii c with
  | true =>
      rw [utf8EncodeChar_of_isAscii c hc, List.mem_singleton] at h
      exact (toUInt8_inj_of_isAscii a c ha hc h).symm
  | false =>
      have hle := le_of_mem_utf8EncodeChar c hc _ h
      have hlt : a.toNat < 128 := by simpa [isAscii] using ha
      rw [toNat_toUInt8_of_isAscii a ha] at hle
      omega

/-- A sign of the first 128 code points that is found among the bytes of a text is a character of
the text. -/
theorem exists_of_utf8Bytes_eq (text : List Char) (a : Char) (front back : List UInt8)
    (ha : isAscii a = true) (h : utf8Bytes text = front ++ a.toUInt8 :: back) :
    ∃ before after, text = before ++ a :: after ∧ utf8Bytes before = front ∧
      utf8Bytes after = back := by
  induction text generalizing front with
  | nil => simp at h
  | cons c rest ih =>
      rw [utf8Bytes_cons] at h
      have hbehind : ∀ front', front = String.utf8EncodeChar c ++ front' →
          utf8Bytes rest = front' ++ a.toUInt8 :: back →
          ∃ before after, c :: rest = before ++ a :: after ∧ utf8Bytes before = front ∧
            utf8Bytes after = back := by
        rintro front' rfl hrest
        obtain ⟨before, after, rfl, hbefore, hafter⟩ := ih front' hrest
        exact ⟨c :: before, after, rfl, by rw [utf8Bytes_cons, hbefore], hafter⟩
      rcases List.append_eq_append_iff.1 h with ⟨front', hfront, hrest⟩ | ⟨inside, hin, hrest⟩
      · exact hbehind front' hfront hrest
      · cases inside with
        | nil => exact hbehind [] (by simpa using hin.symm) (by simpa using hrest.symm)
        | cons b inside =>
            obtain ⟨rfl, hback⟩ := List.cons.inj hrest
            obtain rfl : c = a := eq_of_mem_utf8EncodeChar a c ha (by rw [hin]; simp)
            rw [utf8EncodeChar_of_isAscii c ha] at hin
            have hlength := congrArg List.length hin
            simp only [List.length_cons, List.length_nil, List.length_append] at hlength
            obtain rfl := List.eq_nil_of_length_eq_zero (show front.length = 0 by omega)
            obtain rfl := List.eq_nil_of_length_eq_zero (show inside.length = 0 by omega)
            exact ⟨[], rest, rfl, rfl, hback.symm⟩

theorem mem_utf8Bytes_iff (text : List Char) (a : Char) (ha : isAscii a = true) :
    a.toUInt8 ∈ utf8Bytes text ↔ a ∈ text := by
  constructor
  · intro h
    obtain ⟨front, back, heq⟩ := List.append_of_mem h
    obtain ⟨before, after, rfl, -, -⟩ := exists_of_utf8Bytes_eq text a front back ha heq
    simp
  · intro h
    obtain ⟨before, after, rfl⟩ := List.append_of_mem h
    simp [utf8EncodeChar_of_isAscii a ha]

theorem utf8Bytes_eq_nil_iff (text : List Char) : utf8Bytes text = [] ↔ text = [] := by
  constructor
  · intro h
    by_contra hne
    have hpos := byteLength_pos text hne
    rw [← length_utf8Bytes, h] at hpos
    exact Nat.lt_irrefl 0 hpos
  · rintro rfl
    rfl

/-- The bytes of one text start with those of another only if the text does. -/
theorem utf8Bytes_isPrefix_iff (front text : List Char) :
    utf8Bytes front <+: utf8Bytes text ↔ front <+: text := by
  constructor
  · rintro ⟨rest, h⟩
    apply List.isPrefix_of_utf8Encode_append_eq_utf8Encode rest.toByteArray
    change (utf8Bytes front).toByteArray ++ rest.toByteArray = (utf8Bytes text).toByteArray
    rw [← List.toByteArray_append, h]
  · rintro ⟨rest, rfl⟩
    exact ⟨utf8Bytes rest, (utf8Bytes_append front rest).symm⟩

/-- Texts with the same bytes are the same. -/
theorem utf8Bytes_inj (text text' : List Char) (h : utf8Bytes text = utf8Bytes text') :
    text = text' := by
  have hfront := (utf8Bytes_isPrefix_iff text text').1 (h ▸ List.prefix_rfl)
  have hback := (utf8Bytes_isPrefix_iff text' text).1 (h ▸ List.prefix_rfl)
  exact hfront.eq_of_length_le hback.length_le

theorem head?_utf8Bytes_eq_iff (text : List Char) (a : Char) (ha : isAscii a = true) :
    (utf8Bytes text).head? = some a.toUInt8 ↔ text.head? = some a := by
  constructor
  · intro h
    obtain ⟨rest, hrest⟩ := List.head?_eq_some_iff.1 h
    obtain ⟨before, after, rfl, hbefore, -⟩ := exists_of_utf8Bytes_eq text a [] rest ha hrest
    rw [(utf8Bytes_eq_nil_iff before).1 hbefore]
    rfl
  · intro h
    obtain ⟨rest, rfl⟩ := List.head?_eq_some_iff.1 h
    rw [utf8Bytes_cons, utf8EncodeChar_of_isAscii a ha]
    rfl

/-- A sign in front of further signs is found at the end of a text if it is at the end of the
bytes. -/
theorem utf8Bytes_isSuffix_iff (a : Char) (more text : List Char) (ha : isAscii a = true) :
    utf8Bytes (a :: more) <:+ utf8Bytes text ↔ a :: more <:+ text := by
  constructor
  · rintro ⟨front, h⟩
    rw [utf8Bytes_cons, utf8EncodeChar_of_isAscii a ha, List.singleton_append] at h
    obtain ⟨before, after, rfl, -, hafter⟩ := exists_of_utf8Bytes_eq text a front _ ha h.symm
    rw [utf8Bytes_inj after more hafter]
    exact List.suffix_append before (a :: more)
  · rintro ⟨front, rfl⟩
    exact ⟨utf8Bytes front, (utf8Bytes_append front (a :: more)).symm⟩

theorem getLast?_of_utf8Bytes (text : List Char) (a : Char) (ha : isAscii a = true)
    (h : (utf8Bytes text).getLast? = some a.toUInt8) : text.getLast? = some a := by
  obtain ⟨front, hfront⟩ := List.getLast?_eq_some_iff.1 h
  have hsuffix : utf8Bytes [a] <:+ utf8Bytes text := by
    rw [hfront, utf8Bytes_cons, utf8EncodeChar_of_isAscii a ha]
    exact List.suffix_append front [a.toUInt8]
  obtain ⟨before, rfl⟩ := (utf8Bytes_isSuffix_iff a [] text ha).1 hsuffix
  exact List.getLast?_concat

/-- A sign in front of further signs is found in a text if it is found among the bytes. -/
theorem isInfix_of_utf8Bytes (a : Char) (more text : List Char) (ha : isAscii a = true)
    (h : utf8Bytes (a :: more) <:+: utf8Bytes text) : a :: more <:+: text := by
  obtain ⟨front, back, h⟩ := h
  rw [utf8Bytes_cons, utf8EncodeChar_of_isAscii a ha, List.singleton_append, List.append_assoc,
    List.cons_append] at h
  obtain ⟨before, after, rfl, -, hafter⟩ := exists_of_utf8Bytes_eq text a front _ ha h.symm
  obtain ⟨rest, rfl⟩ := (utf8Bytes_isPrefix_iff more after).1 ⟨back, hafter.symm⟩
  exact ⟨before, rest, by simp⟩

theorem utf8Bytes_replicate (n : Nat) (a : Char) (ha : isAscii a = true) :
    utf8Bytes (List.replicate n a) = List.replicate n a.toUInt8 := by
  induction n with
  | zero => rfl
  | succ n ih =>
      rw [List.replicate_succ, utf8Bytes_cons, utf8EncodeChar_of_isAscii a ha, ih]
      rfl

/-- A run of a sign is found in a text if it is found among the bytes. -/
theorem replicate_isInfix_of_utf8Bytes (n : Nat) (a : Char) (text : List Char)
    (ha : isAscii a = true) (h : List.replicate (n + 1) a.toUInt8 <:+: utf8Bytes text) :
    List.replicate (n + 1) a <:+: text := by
  rw [List.replicate_succ]
  apply isInfix_of_utf8Bytes a _ text ha
  rwa [← List.replicate_succ, utf8Bytes_replicate _ _ ha]

/-- The size of a string is the number of bytes of its characters. -/
theorem utf8ByteSize_eq (text : String) : text.utf8ByteSize = byteLength text.toList := by
  rw [← length_utf8Bytes, ← List.size_toByteArray, toByteArray_utf8Bytes]
  rfl

/-- Whether a byte offset is a character boundary of a text. -/
def IsBoundary (text : String) (offset : Nat) : Prop :=
  String.Pos.Raw.IsValid text ⟨offset⟩

/-- A byte offset is a character boundary exactly if the text can be cut there. -/
theorem isBoundary_iff (text : String) (offset : Nat) :
    IsBoundary text offset ↔
      ∃ before after, text.toList = before ++ after ∧ byteLength before = offset := by
  rw [IsBoundary, String.Pos.Raw.isValid_iff_exists_append]
  constructor
  · rintro ⟨before, after, rfl, h⟩
    refine ⟨before.toList, after.toList, String.toList_append, ?_⟩
    rw [← utf8ByteSize_eq]
    exact (congrArg String.Pos.Raw.byteIdx h).symm
  · rintro ⟨before, after, h, rfl⟩
    have hsize : (String.ofList before).utf8ByteSize = byteLength before := by
      rw [utf8ByteSize_eq, String.toList_ofList]
    refine ⟨String.ofList before, String.ofList after, ?_, String.Pos.Raw.ext hsize.symm⟩
    rw [← String.ofList_append, ← h, String.ofList_toList]

end RecordText.Text
