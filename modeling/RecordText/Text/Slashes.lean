import RecordText.Text.Lines

/-!
# Texts with slashes

Paths and pointers are sequences of parts with a slash between neighbours. Two
slashes in a row have an empty part between them.
-/

namespace RecordText.Text

/-- The parts of a text between its slashes. -/
def cutAtSlashes : List Char → List (List Char)
  | [] => [[]]
  | c :: rest =>
    if c = '/' then [] :: cutAtSlashes rest else consLine c (cutAtSlashes rest)

/-- A text has at least one part. -/
theorem cutAtSlashes_ne_nil (text : List Char) : cutAtSlashes text ≠ [] := by
  cases text with
  | nil => simp [cutAtSlashes]
  | cons c rest =>
      rw [cutAtSlashes]
      split
      · simp
      · cases cutAtSlashes rest <;> simp [consLine]

/-- The parts put together again give the text. -/
theorem joinWith_cutAtSlashes (text : List Char) : joinWith ['/'] (cutAtSlashes text) = text := by
  induction text with
  | nil => rfl
  | cons c rest ih =>
      rw [cutAtSlashes]
      cases hrest : cutAtSlashes rest with
      | nil => exact absurd hrest (cutAtSlashes_ne_nil rest)
      | cons first others =>
          rw [hrest] at ih
          split
          · rename_i hc
            simp [joinWith, ih, hc]
          · cases others with
            | nil => simpa [consLine, joinWith] using ih
            | cons next more => simpa [consLine, joinWith] using ih

end RecordText.Text
