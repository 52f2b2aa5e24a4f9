import RecordText.Proofs.MemberSegments
import RecordText.Proofs.WidenedMask

/-!
# Declarations in widened text

Reading a declaration never tells the spacers of a line end apart and never
counts them. In widened text every reader therefore stops at the same sign, and
a segment declares the same: an override, or a property of the same name. Only
the text of a property's type may hold line ends and be widened itself.

## Implementation notes

A predicate is blind if it does not tell spacers apart. Taking and dropping
characters by a blind predicate keeps the relation, and all readers are built
from that, from words without spacers, and from looks at the first sign.
-/

namespace RecordText.Source

open RecordText.Text

/-- Whether a predicate does not tell spacers apart. -/
def Blind (p : Char → Bool) : Prop :=
  p ' ' = p '\n' ∧ p '\r' = p '\n'

instance (p : Char → Bool) : Decidable (Blind p) :=
  inferInstanceAs (Decidable (_ ∧ _))

theorem Blind.eq {p : Char → Bool} (h : Blind p) (c : Char) (hc : isSpacer c = true) :
    p c = p '\n' := by
  simp only [isSpacer, Bool.or_eq_true, beq_iff_eq] at hc
  rcases hc with (rfl | rfl) | rfl
  · exact h.1
  · rfl
  · exact h.2

theorem isBlank_of_isSpacer (c : Char) (h : isSpacer c = true) : isBlank c = true :=
  (Blind.eq (p := isBlank) (by decide) c h).trans (by decide)

theorem ne_of_isSpacer (c d : Char) (hc : isSpacer c = true) (hd : isSpacer d = false) : c ≠ d := by
  rintro rfl
  rw [hc] at hd
  cases hd

theorem IsWord.not_isSpacer {word : List Char} (h : IsWord word) :
    ∀ c ∈ word, isSpacer c = false := by
  intro c hc
  rw [Bool.eq_false_iff]
  intro hspacer
  have hblank := h.not_isBlank c hc
  rw [isBlank_of_isSpacer c hspacer] at hblank
  cases hblank

/-- A blank starts no word. -/
theorem hasWord_blank (words : List (List Char)) (hwords : ∀ word ∈ words, IsWord word)
    (outside : Bool) (c : Char) (rest : List Char) (hc : isBlank c = true) :
    hasWord words outside (c :: rest) = hasWord words true rest := by
  have hstart : startsWithWord words (c :: rest) = false := by
    rw [startsWithWord, List.any_eq_false]
    intro word hword
    obtain ⟨d, tail, rfl⟩ := List.exists_cons_of_ne_nil (hwords word hword).ne_nil
    have hd : d ≠ c := by
      rintro rfl
      rw [(hwords _ hword).not_isBlank d (by simp)] at hc
      cases hc
    rw [behind?, if_neg hd]
    decide
  rw [hasWord, hstart, Bool.and_false, Bool.false_or, not_isWordChar_of_isBlank c hc,
    Bool.not_false]

theorem takeModifiers_of_nil (text : List Char) (h : text.dropWhile (!isBlank ·) = []) :
    takeModifiers text = ([], text) := by
  rw [takeModifiers]
  split
  · rfl
  · rename_i heq
    rw [h] at heq
    cases heq

theorem takeModifiers_of_cons (text : List Char) (c : Char) (behind : List Char)
    (h : text.dropWhile (!isBlank ·) = c :: behind) :
    takeModifiers text =
      if modifiers.contains (text.takeWhile (!isBlank ·)) then
        (text.takeWhile (!isBlank ·) :: (takeModifiers (trimStart behind)).1,
          (takeModifiers (trimStart behind)).2)
      else ([], text) := by
  rw [takeModifiers]
  split
  · rename_i heq
    rw [h] at heq
    cases heq
  · rename_i heq
    obtain ⟨-, rfl⟩ := List.cons.inj (h.symm.trans heq)
    rfl

/-- Whether the text behind a tuple's first part closes the tuple and goes on as a type does. -/
def closesTuple : List Char → Bool
  | ')' :: behind => behind.all isTypeChar
  | _ => false

theorem closesTuple_cons (c : Char) (behind : List Char) :
    closesTuple (c :: behind) = (c == ')' && behind.all isTypeChar) := by
  unfold closesTuple
  split
  · rename_i heq
    obtain ⟨rfl, rfl⟩ := List.cons.inj heq
    rfl
  · rename_i hne
    rw [beq_eq_false_iff_ne.2 fun hc => hne behind (by rw [hc]), Bool.false_and]

theorem isTypeForm_tuple (rest : List Char) :
    isTypeForm ('(' :: rest) = closesTuple (rest.dropWhile isTypeChar) :=
  rfl

theorem arrow?_cons (c : Char) (rest : List Char) :
    arrow? (c :: rest) = if c = '=' ∧ rest.head? = some '>' then some true else none := by
  unfold arrow?
  split
  · rename_i heq
    cases heq
  · rename_i heq
    obtain ⟨rfl, rfl⟩ := List.cons.inj heq
    rfl
  · rename_i hne
    rw [if_neg]
    rintro ⟨rfl, hhead⟩
    obtain ⟨tail, rfl⟩ := List.head?_eq_some_iff.1 hhead
    exact hne tail rfl

namespace Widened

variable {a b : List Char}

theorem takeWhile (h : Widened a b) (p : Char → Bool) (hp : Blind p) :
    Widened (a.takeWhile p) (b.takeWhile p) := by
  induction h with
  | nil => exact .nil
  | sign c hc _ ih =>
      rw [List.takeWhile_cons, List.takeWhile_cons]
      split
      · exact .sign c hc ih
      · exact .nil
  | gap x y hx hy _ ih =>
      rw [List.takeWhile_cons, List.takeWhile_cons, List.takeWhile_cons, hp.eq x hx, hp.eq y hy]
      split
      · exact .gap x y hx hy ih
      · exact .nil

theorem dropWhile (h : Widened a b) (p : Char → Bool) (hp : Blind p) :
    Widened (a.dropWhile p) (b.dropWhile p) := by
  induction h with
  | nil => exact .nil
  | sign c hc h ih =>
      rw [List.dropWhile_cons, List.dropWhile_cons]
      split
      · exact ih
      · exact .sign c hc h
  | gap x y hx hy h ih =>
      rw [List.dropWhile_cons, List.dropWhile_cons, List.dropWhile_cons, hp.eq x hx, hp.eq y hy]
      split
      · exact ih
      · exact .gap x y hx hy h

theorem all_eq (h : Widened a b) (p : Char → Bool) (hp : Blind p) : b.all p = a.all p := by
  induction h with
  | nil => rfl
  | sign c _ _ ih => rw [List.all_cons, List.all_cons, ih]
  | gap x y hx hy _ ih =>
      rw [List.all_cons, List.all_cons, List.all_cons, hp.eq x hx, hp.eq y hy, ih, ← Bool.and_assoc,
        Bool.and_self]

theorem trimStart (h : Widened a b) : Widened (trimStart a) (trimStart b) :=
  h.dropWhile isBlank (by decide)

theorem trimEnd (h : Widened a b) : Widened (trimEnd a) (trimEnd b) :=
  (h.reverse.dropWhile isBlank (by decide)).reverse

/-- A text in front of the first blank has no line feed. -/
theorem takeWhile_eq (h : Widened a b) (p : Char → Bool) (hp : Blind p) (hfeed : p '\n' = false) :
    b.takeWhile p = a.takeWhile p := by
  apply (h.takeWhile p hp).eq_of_not_mem
  intro hmem
  rw [List.mem_takeWhile_imp hmem] at hfeed
  cases hfeed

/-- Behind their first characters and the blanks after them the texts go on alike. -/
theorem trimStart_tail {c d : Char} (h : Widened (c :: a) (d :: b)) :
    Widened (Text.trimStart a) (Text.trimStart b) := by
  cases h with
  | sign _ _ h => exact h.trimStart
  | gap _ y _ hy h =>
      have hblank := isBlank_of_isSpacer y hy
      rw [Text.trimStart, Text.trimStart, List.dropWhile_cons_of_pos hblank]
      exact h.trimStart

/-- A sign that is no spacer starts both texts or none. -/
theorem exists_cons {c : Char} {rest : List Char} (h : Widened (c :: rest) b)
    (hc : isSpacer c = false) : ∃ rest', b = c :: rest' ∧ Widened rest rest' := by
  cases h with
  | sign _ _ h => exact ⟨_, rfl, h⟩
  | gap => cases hc

theorem exists_cons_left {c : Char} {rest : List Char} (h : Widened a (c :: rest))
    (hc : isSpacer c = false) : ∃ rest', a = c :: rest' ∧ Widened rest' rest := by
  cases h with
  | sign _ _ h => exact ⟨_, rfl, h⟩
  | gap _ _ hx =>
      rw [hx] at hc
      cases hc

theorem nil_iff (h : Widened a b) : b = [] ↔ a = [] := by
  cases h <;> simp

theorem isEmpty_eq (h : Widened a b) : b.isEmpty = a.isEmpty := by
  cases h <;> rfl

theorem behind? (h : Widened a b) (word : List Char) (hword : ∀ c ∈ word, isSpacer c = false) :
    Option.Rel Widened (Text.behind? word a) (Text.behind? word b) := by
  induction word generalizing a b with
  | nil => exact .some h
  | cons w word ih =>
      have hw := hword w (by simp)
      cases h with
      | nil => exact .none
      | sign c _ h =>
          rw [Text.behind?, Text.behind?]
          split
          · exact ih h fun d hd => hword d (by simp [hd])
          · exact .none
      | gap x y hx hy h =>
          rw [Text.behind?, Text.behind?, if_neg (ne_of_isSpacer '\n' w rfl hw).symm,
            if_neg (ne_of_isSpacer x w hx hw).symm]
          exact .none

theorem startsOutsideWord_eq (h : Widened a b) : startsOutsideWord b = startsOutsideWord a := by
  cases h with
  | nil => rfl
  | sign => rfl
  | gap x y hx hy h =>
      rw [startsOutsideWord, startsOutsideWord,
        Blind.eq (p := isWordChar) (by decide) x hx]

theorem startsWithWord_eq (h : Widened a b) (words : List (List Char))
    (hwords : ∀ word ∈ words, IsWord word) : startsWithWord words b = startsWithWord words a := by
  unfold startsWithWord
  induction words with
  | nil => rfl
  | cons word words ih =>
      have hword := h.behind? word (hwords word (by simp)).not_isSpacer
      rw [List.any_cons, List.any_cons, ih fun other hother => hwords other (by simp [hother])]
      generalize Text.behind? word a = found at hword ⊢
      generalize Text.behind? word b = found' at hword ⊢
      cases hword with
      | none => rfl
      | some h => simp only [h.startsOutsideWord_eq]

theorem hasWord_eq (h : Widened a b) (words : List (List Char)) (outside : Bool)
    (hwords : ∀ word ∈ words, IsWord word) : hasWord words outside b = hasWord words outside a := by
  induction h generalizing outside with
  | nil => rfl
  | sign c hc h ih =>
      rw [hasWord, hasWord, (Widened.sign c hc h).startsWithWord_eq words hwords, ih]
  | gap x y hx hy h ih =>
      rw [hasWord_blank words hwords outside x _ (isBlank_of_isSpacer x hx),
        hasWord_blank words hwords true y _ (isBlank_of_isSpacer y hy),
        hasWord_blank words hwords outside '\n' _ (by decide), ih]

theorem hasOverride_eq (h : Widened a b) (outside : Bool) :
    hasOverride outside b = hasOverride outside a := by
  have hword : IsWord overrideReversed := ⟨by decide, isWordChar_overrideReversed⟩
  induction h generalizing outside with
  | nil => rfl
  | sign c hc h ih =>
      have hbehind := (Widened.sign c hc h).behind? overrideReversed hword.not_isSpacer
      rw [hasOverride, hasOverride, ih]
      generalize Text.behind? overrideReversed (c :: _) = found at hbehind ⊢
      generalize Text.behind? overrideReversed (c :: _) = found' at hbehind ⊢
      cases hbehind with
      | none => rfl
      | some h => simp only [h.startsOutsideWord_eq]
  | gap x y hx hy h ih =>
      rw [hasOverride_blank outside x _ (isBlank_of_isSpacer x hx),
        hasOverride_blank true y _ (isBlank_of_isSpacer y hy),
        hasOverride_blank outside '\n' _ (by decide), ih]

theorem afterBracket? (h : Widened a b) :
    Option.Rel Widened (Source.afterBracket? a) (Source.afterBracket? b) := by
  induction h with
  | nil => exact .none
  | sign c _ h ih =>
      rw [Source.afterBracket?, Source.afterBracket?]
      split
      · exact .some h
      · exact ih
  | gap x y hx hy h ih =>
      rw [Source.afterBracket?, if_neg (by decide), Source.afterBracket?,
        if_neg (ne_of_isSpacer x ']' hx (by decide)), Source.afterBracket?,
        if_neg (ne_of_isSpacer y ']' hy (by decide))]
      exact ih

theorem skipAttributes (h : Widened a b) :
    Widened (Source.skipAttributes a) (Source.skipAttributes b) := by
  fun_induction Source.skipAttributes a generalizing b with
  | case1 text inside hopen rest hclose ih =>
      have htrim := h.trimStart
      rw [hopen] at htrim
      obtain ⟨inside', hopen', hinside⟩ := htrim.exists_cons (by decide)
      have hafter := hinside.afterBracket?
      rw [hclose] at hafter
      generalize hclose' : Source.afterBracket? inside' = found at hafter
      cases hafter with
      | some hrest =>
          rw [skipAttributes_of_closed _ _ _ hopen' hclose']
          exact ih hrest
  | case2 text inside hopen hclose =>
      have htrim := h.trimStart
      rw [hopen] at htrim
      obtain ⟨inside', hopen', hinside⟩ := htrim.exists_cons (by decide)
      have hafter := hinside.afterBracket?
      rw [hclose] at hafter
      generalize hclose' : Source.afterBracket? inside' = found at hafter
      cases hafter with
      | none =>
          rw [skipAttributes_of_unclosed _ _ hopen' hclose']
          exact .sign '[' (by decide) hinside
  | case3 text hopen =>
      rw [skipAttributes_of_ne b ?_]
      · exact h.trimStart
      · intro inside' hopen'
        have htrim := h.trimStart
        rw [hopen'] at htrim
        obtain ⟨inside, hinside, -⟩ := htrim.exists_cons_left (by decide)
        exact hopen inside hinside

theorem closesFirst_eq (h : Widened a b) : closesFirst b = closesFirst a := by
  cases h with
  | nil => rfl
  | sign => rw [closesFirst_cons, closesFirst_cons]
  | gap x y hx hy _ =>
      rw [closesFirst_cons, closesFirst_cons, beq_eq_false_iff_ne.2 (ne_of_isSpacer x ')' hx rfl)]
      rfl

theorem endsOverride_eq {found found' : Option (List Char)}
    (h : Option.Rel Widened found found') : endsOverride found' = endsOverride found := by
  cases h with
  | none => rfl
  | some h => simp only [endsOverride, h.startsOutsideWord_eq, h.hasOverride_eq]

theorem overridesToString_eq (h : Widened a b) : overridesToString b = overridesToString a := by
  have hfront := h.takeWhile (fun c => decide (c ≠ '(')) (by decide)
  have hrest := h.dropWhile (fun c => decide (c ≠ '(')) (by decide)
  have hword : IsWord toStringReversed := ⟨by decide, isWordChar_toStringReversed⟩
  have hname := endsOverride_eq ((hfront.reverse.dropWhile isBlank (by decide)).behind?
    toStringReversed hword.not_isSpacer)
  have hequals := hfront.all_eq (fun c => decide (c ≠ '=')) (by decide)
  generalize hdrop : a.dropWhile (fun c => decide (c ≠ '(')) = rest at hrest
  generalize hdrop' : b.dropWhile (fun c => decide (c ≠ '(')) = rest' at hrest
  cases hrest with
  | nil => rw [overridesToString_of_nil a hdrop, overridesToString_of_nil b hdrop']
  | sign c _ hbehind =>
      rw [overridesToString_of_cons a _ _ hdrop, overridesToString_of_cons b _ _ hdrop', hequals,
        hname, hbehind.trimStart.closesFirst_eq]
  | gap x y hx hy hbehind =>
      have htail := (Widened.gap x y hx hy hbehind).trimStart_tail
      rw [overridesToString_of_cons a _ _ hdrop, overridesToString_of_cons b _ _ hdrop', hequals,
        hname, htail.closesFirst_eq]

theorem takeModifiers (h : Widened a b) :
    (Source.takeModifiers b).1 = (Source.takeModifiers a).1 ∧
      Widened (Source.takeModifiers a).2 (Source.takeModifiers b).2 := by
  fun_induction Source.takeModifiers a generalizing b with
  | case1 text hdrop =>
      have hrest := h.dropWhile (!isBlank ·) (by decide)
      rw [hdrop] at hrest
      rw [takeModifiers_of_nil b (hrest.nil_iff.2 rfl)]
      exact ⟨rfl, h⟩
  | case2 text word c behind hdrop hword more =>
      rename_i ih
      have hrest := h.dropWhile (!isBlank ·) (by decide)
      have hsame := h.takeWhile_eq (!isBlank ·) (by decide) (by decide)
      rw [hdrop] at hrest
      obtain ⟨c', behind', hdrop'⟩ := List.exists_cons_of_ne_nil
        (mt hrest.nil_iff.1 (List.cons_ne_nil c behind))
      rw [hdrop'] at hrest
      obtain ⟨hwords, hmore⟩ := ih hrest.trimStart_tail
      rw [takeModifiers_of_cons b c' behind' hdrop', hsame, if_pos hword]
      exact ⟨by rw [hwords], hmore⟩
  | case3 text word c behind hdrop =>
      rename_i hword
      have hrest := h.dropWhile (!isBlank ·) (by decide)
      have hsame := h.takeWhile_eq (!isBlank ·) (by decide) (by decide)
      rw [hdrop] at hrest
      obtain ⟨c', behind', hdrop'⟩ := List.exists_cons_of_ne_nil
        (mt hrest.nil_iff.1 (List.cons_ne_nil c behind))
      rw [takeModifiers_of_cons b c' behind' hdrop', hsame, if_neg hword]
      exact ⟨rfl, h⟩

theorem closesTuple_eq (h : Widened a b) : closesTuple b = closesTuple a := by
  cases h with
  | nil => rfl
  | sign c _ h => rw [closesTuple_cons, closesTuple_cons, h.all_eq isTypeChar (by decide)]
  | gap x y hx hy _ =>
      rw [closesTuple_cons, closesTuple_cons, beq_eq_false_iff_ne.2 (ne_of_isSpacer x ')' hx rfl)]
      rfl

theorem isTypeForm_eq (h : Widened a b) : isTypeForm b = isTypeForm a := by
  cases h with
  | nil => rfl
  | sign c _ h =>
      by_cases hc : c = '('
      · subst hc
        rw [isTypeForm_tuple, isTypeForm_tuple,
          (h.dropWhile isTypeChar (by decide)).closesTuple_eq]
      · rw [isTypeForm_of_ne c _ hc, isTypeForm_of_ne c _ hc, h.all_eq isTypeChar (by decide)]
  | gap x y hx hy h =>
      rw [isTypeForm_of_ne '\n' _ (by decide), isTypeForm_of_ne x _ (ne_of_isSpacer x '(' hx rfl),
        isBlank_of_isSpacer x hx, isBlank_of_isSpacer '\n' rfl, Bool.not_true, Bool.and_false,
        Bool.and_false, Bool.false_and, Bool.false_and]

theorem head?_eq_some_iff (h : Widened a b) (c : Char) (hc : isSpacer c = false) :
    b.head? = some c ↔ a.head? = some c := by
  cases h with
  | nil => rfl
  | sign => rfl
  | gap x y hx _ _ =>
      simp [ne_of_isSpacer x c hx hc, ne_of_isSpacer '\n' c rfl hc]

theorem arrow?_eq (h : Widened a b) : arrow? b = arrow? a := by
  cases h with
  | nil => rfl
  | sign c _ h =>
      simp only [arrow?_cons, h.head?_eq_some_iff '>' (by decide)]
  | gap x y hx _ _ =>
      rw [arrow?_cons, arrow?_cons, if_neg fun heq => ne_of_isSpacer x '=' hx (by decide) heq.1,
        if_neg fun heq => ne_of_isSpacer '\n' '=' rfl (by decide) heq.1]

end Widened

/-- Whether two properties are read alike, but for line ends in their types. -/
structure PropertyParts.Alike (parts parts' : PropertyParts) : Prop where
  modifiers_eq : parts'.modifiers = parts.modifiers
  type_widened : Widened parts.type parts'.type
  name_eq : parts'.name = parts.name
  arrow_eq : parts'.arrow = parts.arrow

theorem PropertyParts.Alike.isField_eq {parts parts' : PropertyParts} (h : parts.Alike parts')
    (terminator : Terminator) : parts'.isField terminator = parts.isField terminator := by
  unfold PropertyParts.isField
  rw [h.arrow_eq, h.modifiers_eq,
    h.type_widened.hasWord_eq nonTypeWords true isWord_of_mem_nonTypeWords]

namespace Widened

variable {a b : List Char}

theorem readFront? (h : Widened a b) (arrow : Bool) :
    Option.Rel PropertyParts.Alike (Source.readFront? a arrow) (Source.readFront? b arrow) := by
  have hname := h.reverse.takeWhile_eq (!isBlank ·) (by decide) (by decide)
  obtain ⟨hmodifiers, htype⟩ :=
    (h.reverse.dropWhile (!isBlank ·) (by decide)).reverse.trimEnd.takeModifiers
  simp only [Source.readFront?, hname, htype.isTypeForm_eq]
  split
  · exact .some ⟨hmodifiers, htype, rfl, rfl⟩
  · exact .none

theorem readProperty? (h : Widened a b) :
    Option.Rel PropertyParts.Alike (Source.readProperty? a) (Source.readProperty? b) := by
  have hfront := (h.takeWhile (fun c => decide (c ≠ '=')) (by decide)).trimEnd
  rw [readProperty?_eq, readProperty?_eq,
    (h.dropWhile (fun c => decide (c ≠ '=')) (by decide)).arrow?_eq]
  cases arrow? (a.dropWhile _) with
  | none => exact .none
  | some arrow => exact hfront.readFront? arrow

end Widened

/-- What tells a declaration from others of its class: a property by its name. -/
def Declared.key : Declared → Option String
  | .toStringOverride => none
  | .property field => some field.name

/-- Whether two segments have the same text but for line ends, and end alike. -/
structure Segment.Alike (segment segment' : Segment) : Prop where
  text_widened : Widened segment.text segment'.text
  terminator_eq : segment'.terminator = segment.terminator

/-- Segments that differ in line ends only declare the same. -/
theorem Segment.Alike.key_eq {segment segment' : Segment} (h : segment.Alike segment') :
    segment'.declared?.map Declared.key = segment.declared?.map Declared.key := by
  have hread := h.text_widened.skipAttributes.trimEnd
  have hproperty := hread.readProperty?
  unfold Segment.declared?
  dsimp only
  rw [hread.isEmpty_eq, hread.overridesToString_eq, h.terminator_eq]
  split
  · rfl
  · split
    · rfl
    · generalize readProperty? (trimEnd (skipAttributes segment.text)) = found at hproperty ⊢
      generalize readProperty? (trimEnd (skipAttributes segment'.text)) = found' at hproperty ⊢
      cases hproperty with
      | none => rfl
      | some halike =>
          dsimp only
          rw [halike.isField_eq]
          split
          · simp only [Option.map_some, Declared.key, halike.name_eq]
          · rfl

end RecordText.Source
