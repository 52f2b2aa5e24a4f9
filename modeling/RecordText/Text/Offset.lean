/-!
# Byte offsets

Positions in a text are counted in bytes of its UTF-8 form. A text can be cut
at an offset when the offset falls between two characters.
-/

namespace RecordText.Text

/-- The number of bytes of a text. -/
def byteLength : List Char → Nat
  | [] => 0
  | c :: rest => c.utf8Size + byteLength rest

@[simp] theorem byteLength_append (a b : List Char) :
    byteLength (a ++ b) = byteLength a + byteLength b := by
  induction a with
  | nil => simp [byteLength]
  | cons c rest ih =>
      simp [byteLength, ih, Nat.add_assoc]

/-- Cut a text at a byte offset, when a character starts or the text ends there. -/
def cutAt? : List Char → Nat → Option (List Char × List Char)
  | text, 0 => some ([], text)
  | [], _ + 1 => none
  | c :: rest, n + 1 =>
    if c.utf8Size ≤ n + 1 then
      (cutAt? rest (n + 1 - c.utf8Size)).map fun cut => (c :: cut.1, cut.2)
    else none

/-- A cut loses nothing, and its first part has exactly the bytes before the offset. -/
theorem eq_append_of_cutAt? (text : List Char) (n : Nat) (before after : List Char)
    (h : cutAt? text n = some (before, after)) :
    text = before ++ after ∧ byteLength before = n := by
  induction text generalizing n before with
  | nil =>
      cases n with
      | zero =>
          obtain ⟨rfl, rfl⟩ : [] = before ∧ [] = after := by simpa [cutAt?] using h
          exact ⟨rfl, rfl⟩
      | succ n => simp [cutAt?] at h
  | cons c rest ih =>
      cases n with
      | zero =>
          obtain ⟨rfl, rfl⟩ : [] = before ∧ c :: rest = after := by simpa [cutAt?] using h
          exact ⟨rfl, rfl⟩
      | succ n =>
          rw [cutAt?] at h
          split at h
          · rename_i fits
            obtain ⟨cut, hcut, heq⟩ := Option.map_eq_some_iff.1 h
            obtain ⟨rfl, rfl⟩ := Prod.mk.inj heq
            obtain ⟨htext, hlen⟩ := ih _ _ hcut
            refine ⟨by rw [List.cons_append, ← htext], ?_⟩
            simp only [byteLength, hlen]
            omega
          · simp at h

/-- A text can be cut behind any of its parts. -/
theorem cutAt?_append (before after : List Char) :
    cutAt? (before ++ after) (byteLength before) = some (before, after) := by
  induction before with
  | nil => simp [cutAt?, byteLength]
  | cons c rest ih =>
      have pos : 0 < c.utf8Size := c.utf8Size_pos
      obtain ⟨n, hn⟩ : ∃ n, c.utf8Size + byteLength rest = n + 1 :=
        ⟨c.utf8Size + byteLength rest - 1, by omega⟩
      simp only [byteLength, hn, List.cons_append]
      rw [cutAt?]
      have hsub : n + 1 - c.utf8Size = byteLength rest := by omega
      have hle : c.utf8Size ≤ n + 1 := by omega
      simp [hle, hsub, ih]

end RecordText.Text
