/-!
# The start of a text

A text may start with a given word; what stands behind the word is then the
rest of the text.
-/

namespace RecordText.Text

/-- What stands behind a word at the start of a text, if the text starts with it. -/
def behind? : (word text : List Char) → Option (List Char)
  | [], text => some text
  | _ :: _, [] => none
  | w :: word, c :: text => if w = c then behind? word text else none

theorem behind?_eq_some_iff (word text rest : List Char) :
    behind? word text = some rest ↔ word ++ rest = text := by
  induction word generalizing text with
  | nil => simp [behind?, eq_comm]
  | cons w word ih =>
      cases text with
      | nil => simp [behind?]
      | cons c text =>
          rw [behind?]
          split
          · rename_i h
            simp [ih, h]
          · rename_i h
            simp [h]

@[simp] theorem behind?_append (word rest : List Char) :
    behind? word (word ++ rest) = some rest :=
  (behind?_eq_some_iff word (word ++ rest) rest).2 rfl

end RecordText.Text
