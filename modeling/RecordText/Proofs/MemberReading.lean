import RecordText.Proofs.TreeHeaders
import Mathlib.Data.List.Induction

/-!
# How the members of a class tree are read

The walk through a class body cuts the text of a member into segments: one that
ends at a semicolon or at the opening brace of a block, and for a property with
an initial value a second one. Behind the attributes a segment starts with
modifiers, a type and a name. Only a property is read as a property, and only a
method is read as an override of `ToString`.
-/

namespace RecordText.Source

open RecordText.Text

theorem takeWhile_append_of_neg {p : Char → Bool} (front back : List Char) (c : Char)
    (hc : p c = false) : (front ++ c :: back).takeWhile p = front.takeWhile p := by
  induction front with
  | nil => simp [hc]
  | cons d front ih =>
      by_cases hd : p d = true
      · rw [List.cons_append, List.takeWhile_cons_of_pos hd, List.takeWhile_cons_of_pos hd, ih]
      · rw [List.cons_append, List.takeWhile_cons_of_neg hd, List.takeWhile_cons_of_neg hd]

theorem dropWhile_append_of_neg {p : Char → Bool} (front back : List Char) (c : Char)
    (hc : p c = false) :
    (front ++ c :: back).dropWhile p = front.dropWhile p ++ c :: back := by
  induction front with
  | nil => simp [hc]
  | cons d front ih =>
      by_cases hd : p d = true
      · rw [List.cons_append, List.dropWhile_cons_of_pos hd, List.dropWhile_cons_of_pos hd, ih]
      · rw [List.cons_append, List.dropWhile_cons_of_neg hd, List.dropWhile_cons_of_neg hd,
          List.cons_append]

/-- Blanks are only dropped behind the last sign that is none. -/
theorem trimEnd_append_of_not_isBlank (front back : List Char) (c : Char)
    (hc : isBlank c = false) : trimEnd (front ++ c :: back) = front ++ c :: trimEnd back := by
  have hreverse : (front ++ c :: back).reverse = back.reverse ++ c :: front.reverse := by simp
  rw [trimEnd, hreverse, dropWhile_append_of_neg _ _ c hc]
  simp [trimEnd]

/-- The search for a sign passes over a text without it. -/
theorem forall_ne_of_not_mem (text : List Char) (sign : Char) (h : sign ∉ text) :
    ∀ c ∈ text, decide (c ≠ sign) = true := by
  intro c hc
  rw [decide_eq_true_iff]
  rintro rfl
  exact h hc

theorem afterBracket?_append (inside rest : List Char) (h : ']' ∉ inside) :
    afterBracket? (inside ++ ']' :: rest) = some rest := by
  induction inside with
  | nil => rw [List.nil_append, afterBracket?, if_pos rfl]
  | cons c inside ih =>
      rw [List.mem_cons, not_or] at h
      rw [List.cons_append, afterBracket?, if_neg (Ne.symm h.1), ih h.2]

/-- Attributes with the blanks around them are dropped. -/
theorem skipAttributes_attributesText (attributes : List (AttributeText × Gap))
    (blanks : List Char) (c : Char) (rest : List Char) (hblanks : ∀ d ∈ blanks, isBlank d = true)
    (hc : isBlank c = false) (hbracket : c ≠ '[') :
    skipAttributes (blanks ++ (attributesText attributes ++ c :: rest)) = c :: rest := by
  induction attributes generalizing blanks with
  | nil => exact skipAttributes_append_blanks blanks c rest hblanks hc hbracket
  | cons item attributes ih =>
      obtain ⟨inside, gap⟩ := item
      have hinside : ']' ∉ inside.text := fun hmem => inside.free ']' hmem (by decide)
      have htext : blanks ++ (attributesText ((inside, gap) :: attributes) ++ c :: rest) =
          blanks ++ '[' :: (inside.text ++
            ']' :: (gap.text ++ (attributesText attributes ++ c :: rest))) := by
        simp [attributesText]
      have htrim : trimStart (blanks ++ '[' :: (inside.text ++
            ']' :: (gap.text ++ (attributesText attributes ++ c :: rest)))) =
          '[' :: (inside.text ++ ']' :: (gap.text ++ (attributesText attributes ++ c :: rest))) :=
        (takeWhile_dropWhile_of_stop blanks _ hblanks (by simp; decide)).2
      rw [htext, skipAttributes]
      split
      · rename_i opened hopened
        rw [htrim, List.cons.injEq] at hopened
        obtain ⟨-, rfl⟩ := hopened
        split
        · rename_i behind hbehind
          rw [afterBracket?_append _ _ hinside, Option.some.injEq] at hbehind
          rw [← hbehind]
          exact ih gap.text gap.blank
        · rename_i hnone
          rw [afterBracket?_append _ _ hinside] at hnone
          cases hnone
      · rename_i hother
        exact absurd htrim (hother _)

/-- Text made of the characters of words, and not empty. -/
structure IsWord (word : List Char) : Prop where
  ne_nil : word ≠ []
  wordy : ∀ c ∈ word, isWordChar c = true

theorem IsWord.not_isBlank {word : List Char} (h : IsWord word) :
    ∀ c ∈ word, isBlank c = false :=
  fun c hc => not_isBlank_of_isWordChar c (h.wordy c hc)

theorem isWord_of_mem_modifiers (word : List Char) (h : word ∈ modifiers) : IsWord word := by
  have hne : [] ∉ modifiers := by decide +kernel
  exact ⟨fun hnil => hne (hnil ▸ h), isWordChar_of_mem_modifier word h⟩

theorem isWord_classWord : IsWord classWord :=
  ⟨by decide, by decide⟩

theorem TypeWord.isWord (type : TypeWord) : IsWord type.text := by
  obtain ⟨c, rest, heq, -, -⟩ := (isBareForm_iff type.text).1 type.form
  exact ⟨by simp [heq], type.wordy⟩

/-- The head of a text that starts with a word. -/
theorem IsWord.head? {word : List Char} (h : IsWord word) (rest : List Char) :
    ∀ c ∈ (word ++ rest).head?, isWordChar c = true := by
  obtain ⟨c, tail, rfl⟩ := List.exists_cons_of_ne_nil h.ne_nil
  simpa using h.wordy c (by simp)

/-- The words of modifiers. -/
def modifierWords (modifiers : List (Modifier × Gap)) : List (List Char) :=
  modifiers.map fun item => item.1.1

theorem head?_modifiersText (items : List (Modifier × Gap)) (rest : List Char)
    (h : ∀ c ∈ rest.head?, isWordChar c = true) :
    ∀ c ∈ (modifiersText items ++ rest).head?, isWordChar c = true := by
  cases items with
  | nil => exact h
  | cons item items =>
      have hword := (isWord_of_mem_modifiers item.1.1 item.1.2).head?
        (item.2.text ++ (modifiersText items ++ rest))
      simpa [modifiersText] using hword

/-- Modifiers are taken off the front one by one. -/
theorem takeModifiers_modifiersText (items : List (Modifier × Gap)) (rest : List Char)
    (h : ∀ c ∈ rest.head?, isWordChar c = true) :
    takeModifiers (modifiersText items ++ rest) =
      (modifierWords items ++ (takeModifiers rest).1, (takeModifiers rest).2) := by
  induction items with
  | nil => rfl
  | cons item items ih =>
      obtain ⟨⟨word, hword⟩, gap⟩ := item
      have hisWord := isWord_of_mem_modifiers word hword
      have htext : modifiersText ((⟨word, hword⟩, gap) :: items) ++ rest =
          word ++ gap.first :: (gap.more ++ (modifiersText items ++ rest)) := by
        simp [modifiersText, Gap.text]
      have hfirst : isBlank gap.first = true := gap.blank _ (by simp)
      obtain ⟨htake, hdrop⟩ := takeWhile_dropWhile_of_stop (p := (!isBlank ·)) word
        (gap.first :: (gap.more ++ (modifiersText items ++ rest)))
        (by simpa using hisWord.not_isBlank) (by simpa using hfirst)
      have htrim : trimStart (gap.more ++ (modifiersText items ++ rest)) =
          modifiersText items ++ rest := by
        refine (takeWhile_dropWhile_of_stop gap.more _ (fun c hc => gap.blank c (by simp [hc]))
          ?_).2
        intro c hc
        exact not_isBlank_of_isWordChar c (head?_modifiersText items rest h c hc)
      have hcontains : modifiers.contains word = true := by simpa using hword
      rw [htext, takeModifiers]
      split
      · rename_i hnil
        rw [hdrop] at hnil
        cases hnil
      · rename_i blank behind hbehind
        rw [hdrop, List.cons.injEq] at hbehind
        rw [htake, if_pos hcontains, ← hbehind.2, htrim, ih]
        rfl

/-- A word at the end of the text is no modifier any more. -/
theorem takeModifiers_word (word : List Char) (h : IsWord word) :
    takeModifiers word = ([], word) := by
  have hdrop : word.dropWhile (!isBlank ·) = [] := by
    rw [List.dropWhile_eq_nil_iff]
    simpa using h.not_isBlank
  rw [takeModifiers]
  split
  · rfl
  · rename_i hbehind
    rw [hdrop] at hbehind
    cases hbehind

/-- A word that is no modifier ends the modifiers. -/
theorem takeModifiers_word_append (word : List Char) (b : Char) (rest : List Char)
    (h : IsWord word) (hb : isBlank b = true) (hword : word ∉ modifiers) :
    takeModifiers (word ++ b :: rest) = ([], word ++ b :: rest) := by
  obtain ⟨htake, hdrop⟩ := takeWhile_dropWhile_of_stop (p := (!isBlank ·)) word (b :: rest)
    (by simpa using h.not_isBlank) (by simpa using hb)
  have hcontains : modifiers.contains word = false := by simpa using hword
  rw [takeModifiers]
  split
  · rfl
  · rw [htake, hcontains]
    rfl

/-- How a declaration starts behind its attributes: modifiers, a word and a name. -/
def signature (items : List (Modifier × Gap)) (word : List Char) (gap : Gap) (name : NameText) :
    List Char :=
  modifiersText items ++ (word ++ (gap.text ++ name.text))

/-- Whether `c` may stand in a signature. -/
def isSignatureChar (c : Char) : Bool :=
  isBlank c || c == '@' || isWordChar c

section Signatures

variable (items : List (Modifier × Gap)) (word : List Char) (gap : Gap) (name : NameText)

theorem isSignatureChar_of_mem (hword : IsWord word) (c : Char)
    (hc : c ∈ signature items word gap name) : isSignatureChar c = true := by
  simp only [signature, modifiersText, List.mem_append, List.mem_flatMap] at hc
  rw [isSignatureChar, Bool.or_eq_true, Bool.or_eq_true, beq_iff_eq, or_assoc]
  rcases hc with ⟨item, -, hmodifier | hgap⟩ | hin | hgap | hname
  · exact Or.inr (Or.inr (isWordChar_of_mem_modifier item.1.1 item.1.2 c hmodifier))
  · exact Or.inl (item.2.blank c hgap)
  · exact Or.inr (Or.inr (hword.wordy c hin))
  · exact Or.inl (gap.blank c hgap)
  · exact Or.inr (name.wordy c hname)

/-- The signs of declarations stand neither in a signature nor in the blanks behind it. -/
theorem not_mem_signature_append (hword : IsWord word) (blanks : List Char)
    (hblanks : ∀ c ∈ blanks, isBlank c = true) (c : Char) (hc : isSignatureChar c = false) :
    c ∉ signature items word gap name ++ blanks := by
  intro hmem
  have hin : isSignatureChar c = true := by
    rcases List.mem_append.1 hmem with hsignature | hblank
    · exact isSignatureChar_of_mem items word gap name hword c hsignature
    · rw [isSignatureChar, hblanks c hblank, Bool.true_or, Bool.true_or]
  rw [hin] at hc
  cases hc

theorem NameText.not_isBlank (name : NameText) (c : Char) (hc : c ∈ name.text) :
    isBlank c = false := by
  exact not_isBlank_of_mem_isName name.text name.isName c hc

theorem NameText.ne_nil (name : NameText) : name.text ≠ [] := by
  obtain ⟨bare, hbare, hform, -⟩ := name.exists_bare
  obtain ⟨c, rest, rfl, -, -⟩ := (isBareForm_iff bare).1 hform
  rcases hbare with heq | heq <;> simp [heq]

/-- A text that ends with a name does not end with a blank. -/
theorem NameText.getLast?_append (name : NameText) (front : List Char) :
    ∀ c ∈ (front ++ name.text).getLast?, isBlank c = false := by
  intro c hc
  rw [List.getLast?_append_of_ne_nil _ name.ne_nil] at hc
  exact name.not_isBlank c (List.mem_of_getLast? hc)

theorem getLast?_signature :
    ∀ c ∈ (signature items word gap name).getLast?, isBlank c = false := by
  have htext : signature items word gap name =
      (modifiersText items ++ (word ++ gap.text)) ++ name.text := by
    simp [signature]
  rw [htext]
  exact name.getLast?_append _

/-- Behind its attributes a declaration starts with a word. -/
theorem head?_signature (hword : IsWord word) (rest : List Char) :
    ∀ c ∈ (signature items word gap name ++ rest).head?, isWordChar c = true := by
  have hhead := head?_modifiersText items (word ++ (gap.text ++ name.text) ++ rest)
    (by simpa using hword.head? (gap.text ++ name.text ++ rest))
  simpa [signature] using hhead

/-- The attributes in front of a signature are dropped, with the blanks around them. -/
theorem skipAttributes_signature (hword : IsWord word) (lead : List Char)
    (hlead : ∀ c ∈ lead, isBlank c = true) (attributes : List (AttributeText × Gap))
    (rest : List Char) :
    skipAttributes (lead ++ (attributesText attributes ++
        (signature items word gap name ++ rest))) = signature items word gap name ++ rest := by
  have hhead := head?_signature items word gap name hword rest
  cases htext : signature items word gap name ++ rest with
  | nil =>
      have hnil := (List.append_eq_nil_iff.1 htext).1
      simp [signature, name.ne_nil] at hnil
  | cons c tail =>
      have hc : isWordChar c = true := hhead c (by simp [htext])
      apply skipAttributes_attributesText attributes lead c tail hlead
      · exact not_isBlank_of_isWordChar c hc
      · exact ne_of_isWordChar c _ hc (by decide)

theorem Gap.head?_reverse (gap : Gap) (rest : List Char) :
    ∀ c ∈ (gap.text.reverse ++ rest).head?, isBlank c = true := by
  intro c hc
  have hne : gap.text.reverse ≠ [] := by simp [Gap.text]
  rw [List.head?_append_of_ne_nil _ hne] at hc
  exact gap.blank c (List.mem_reverse.1 (List.mem_of_mem_head? hc))

theorem isTypeChar_of_isWordChar (c : Char) (h : isWordChar c = true) : isTypeChar c = true := by
  by_contra hc
  simp only [isTypeChar, Bool.not_eq_true', Bool.not_eq_false, Bool.or_eq_true, beq_iff_eq] at hc
  rcases hc with ((((rfl | rfl) | rfl) | rfl) | rfl) | rfl <;> revert h <;> decide

theorem isTypeForm_of_ne (c : Char) (rest : List Char) (h : c ≠ '(') :
    isTypeForm (c :: rest) = (isTypeChar c && !isBlank c && rest.all isTypeChar) := by
  rw [isTypeForm]
  rintro rfl
  exact absurd rfl h

theorem isTypeForm_of_isWord (word : List Char) (h : IsWord word) : isTypeForm word = true := by
  obtain ⟨c, rest, rfl⟩ := List.exists_cons_of_ne_nil h.ne_nil
  have hc := h.wordy c (by simp)
  have hparen : c ≠ '(' := ne_of_isWordChar c _ hc (by decide)
  have hrest : rest.all isTypeChar = true := by
    rw [List.all_eq_true]
    intro d hd
    exact isTypeChar_of_isWordChar d (h.wordy d (by simp [hd]))
  rw [isTypeForm_of_ne c rest hparen, isTypeChar_of_isWordChar c hc,
    not_isBlank_of_isWordChar c hc, hrest]
  rfl

/-- Read the part of a declaration in front of an arrow as modifiers, a type and a name. -/
def readFront? (front : List Char) (arrow : Bool) : Option PropertyParts :=
  let name := (front.reverse.takeWhile (!isBlank ·)).reverse
  let typed := takeModifiers (trimEnd (front.reverse.dropWhile (!isBlank ·)).reverse)
  if isName name && isTypeForm typed.2 then
    some { modifiers := typed.1, type := typed.2, name, arrow }
  else none

theorem readProperty?_eq (declaration : List Char) :
    readProperty? declaration = (arrow? (declaration.dropWhile (· ≠ '='))).bind
      (readFront? (trimEnd (declaration.takeWhile (· ≠ '=')))) := by
  unfold readProperty?
  cases arrow? (declaration.dropWhile (· ≠ '=')) with
  | none => rfl
  | some arrow =>
      simp only [readFront?, Option.bind_eq_bind, Option.bind_some]
      cases isName _ <;> cases isTypeForm _ <;> rfl

/-- The word and the name of a signature are the type and the name of a property. -/
theorem readFront?_signature (hword : IsWord word) (arrow : Bool) :
    readFront? (signature items word gap name) arrow =
      some { modifiers := modifierWords items, type := word, name := name.text, arrow } := by
  have hreverse : (signature items word gap name).reverse =
      name.text.reverse ++ (gap.text.reverse ++ (modifiersText items ++ word).reverse) := by
    simp [signature]
  obtain ⟨hname, htyped⟩ := takeWhile_dropWhile_of_stop (p := (!isBlank ·)) name.text.reverse
    (gap.text.reverse ++ (modifiersText items ++ word).reverse)
    (by simpa using name.not_isBlank)
    (by simpa using gap.head?_reverse (modifiersText items ++ word).reverse)
  have hlast : ∀ c ∈ (modifiersText items ++ word).getLast?, isBlank c = false := by
    intro c hc
    rw [List.getLast?_append_of_ne_nil _ hword.ne_nil] at hc
    exact hword.not_isBlank c (List.mem_of_getLast? hc)
  have htype : trimEnd (gap.text.reverse ++ (modifiersText items ++ word).reverse).reverse =
      modifiersText items ++ word := by
    rw [List.reverse_append, List.reverse_reverse, List.reverse_reverse]
    exact trimEnd_append_blanks _ _ gap.blank hlast
  have hmodifiers : takeModifiers (modifiersText items ++ word) = (modifierWords items, word) := by
    rw [takeModifiers_modifiersText items word (by simpa using hword.head? []),
      takeModifiers_word word hword, List.append_nil]
  unfold readFront?
  simp only [hreverse, hname, htyped, htype, hmodifiers, List.reverse_reverse, name.isName,
    isTypeForm_of_isWord word hword, Bool.and_self, if_true]

/-- A signature is read as a property if nothing or an arrow follows it. -/
theorem readProperty?_signature (hword : IsWord word) (blanks tail : List Char)
    (hblanks : ∀ c ∈ blanks, isBlank c = true) (htail : ∀ c ∈ tail.head?, c = '=') :
    readProperty? (signature items word gap name ++ (blanks ++ tail)) =
      (arrow? tail).map fun arrow =>
        { modifiers := modifierWords items, type := word, name := name.text, arrow } := by
  have hplain :=
    not_mem_signature_append items word gap name hword blanks hblanks '=' (by decide)
  obtain ⟨htake, hdrop⟩ := takeWhile_dropWhile_of_stop (p := (· ≠ '='))
    (signature items word gap name ++ blanks) tail (forall_ne_of_not_mem _ '=' hplain)
    (by simpa using htail)
  rw [List.append_assoc] at htake hdrop
  have htrim : trimEnd (signature items word gap name ++ blanks) = signature items word gap name :=
    trimEnd_append_blanks _ _ hblanks (getLast?_signature items word gap name)
  rw [readProperty?_eq, hdrop, htake, htrim]
  cases arrow? tail with
  | none => rfl
  | some arrow => exact readFront?_signature items word gap name hword arrow

/-- A parenthesis keeps a word and what follows it from being a type. -/
theorem isTypeForm_of_paren (hword : IsWord word) (front back : List Char) :
    isTypeForm (word ++ (front ++ '(' :: back)) = false := by
  obtain ⟨c, rest, rfl⟩ := List.exists_cons_of_ne_nil hword.ne_nil
  have hc := hword.wordy c (by simp)
  have hparen : c ≠ '(' := ne_of_isWordChar c _ hc (by decide)
  have hall : (rest ++ (front ++ '(' :: back)).all isTypeChar = false := by
    rw [List.all_eq_false]
    exact ⟨'(', by simp, by decide⟩
  rw [List.cons_append, isTypeForm_of_ne c _ hparen, hall, Bool.and_false]

theorem takeModifiers_signature_append (hword : IsWord word) (hmodifier : word ∉ modifiers)
    (rest : List Char) :
    takeModifiers (signature items word gap name ++ rest) =
      (modifierWords items, word ++ (gap.text ++ (name.text ++ rest))) := by
  have htext : signature items word gap name ++ rest =
      modifiersText items ++ (word ++ (gap.text ++ (name.text ++ rest))) := by
    simp [signature]
  have hfirst : isBlank gap.first = true := gap.blank _ (by simp)
  have hgap : gap.text ++ (name.text ++ rest) = gap.first :: (gap.more ++ (name.text ++ rest)) :=
    rfl
  rw [htext, takeModifiers_modifiersText items _ (hword.head? _), hgap,
    takeModifiers_word_append word gap.first _ hword hfirst hmodifier, List.append_nil]

/-- A signature with a parenthesis behind it is not the front of a property. -/
theorem readFront?_paren (hword : IsWord word) (hmodifier : word ∉ modifiers)
    (behind back : List Char) (arrow : Bool) :
    readFront? (signature items word gap name ++ (behind ++ '(' :: back)) arrow = none := by
  have hreverse : (signature items word gap name ++ (behind ++ '(' :: back)).reverse =
      back.reverse ++ '(' :: (signature items word gap name ++ behind).reverse := by
    simp
  unfold readFront?
  dsimp only
  rw [hreverse, if_neg]
  rw [Bool.and_eq_true, not_and]
  intro hname
  rw [List.takeWhile_append] at hname
  rw [List.dropWhile_append]
  split at hname
  · exfalso
    have hmem : '(' ∈ (back.reverse ++ ('(' :: (signature items word gap name ++
        behind).reverse).takeWhile (!isBlank ·)).reverse := by
      simp [show isBlank '(' = false by decide]
    rcases mem_isName _ hname '(' hmem with hat | hrest
    · revert hat
      decide
    · revert hrest
      decide
  · rename_i hlength
    have hne : (back.reverse.dropWhile (!isBlank ·)).isEmpty = false := by
      rw [List.isEmpty_eq_false_iff]
      intro hnil
      have hwhole := List.takeWhile_append_dropWhile (p := (!isBlank ·)) (l := back.reverse)
      rw [hnil, List.append_nil] at hwhole
      exact hlength (by rw [hwhole])
    have hparen := isTypeForm_of_paren word hword (gap.text ++ (name.text ++ behind))
      (trimEnd (back.reverse.dropWhile (!isBlank ·)).reverse)
    simp only [List.append_assoc] at hparen
    rw [hne, if_neg Bool.false_ne_true, List.reverse_append, List.reverse_cons,
      List.reverse_reverse, List.append_assoc _ ['('], List.singleton_append,
      trimEnd_append_of_not_isBlank _ _ '(' (by decide), List.append_assoc,
      takeModifiers_signature_append items word gap name hword hmodifier, hparen]
    exact Bool.false_ne_true

/-- A method is not read as a property. -/
theorem readProperty?_paren (hword : IsWord word) (hmodifier : word ∉ modifiers)
    (behind back : List Char) (hblanks : ∀ c ∈ behind, isBlank c = true) :
    readProperty? (signature items word gap name ++ (behind ++ '(' :: back)) = none := by
  have hplain :=
    not_mem_signature_append items word gap name hword behind hblanks '=' (by decide)
  have htake : (signature items word gap name ++ (behind ++ '(' :: back)).takeWhile (· ≠ '=') =
      (signature items word gap name ++ behind) ++ '(' :: back.takeWhile (· ≠ '=') := by
    rw [← List.append_assoc, List.takeWhile_append_of_pos (forall_ne_of_not_mem _ '=' hplain),
      List.takeWhile_cons_of_pos (by decide)]
  rw [readProperty?_eq, htake, trimEnd_append_of_not_isBlank _ _ '(' (by decide)]
  cases arrow? _ with
  | none => rfl
  | some arrow =>
      rw [List.append_assoc]
      exact readFront?_paren items word gap name hword hmodifier behind _ arrow

end Signatures

/-- A word in front of the end of words starts with another word exactly if the two are equal. -/
theorem behind?_word (target word rest : List Char) (htarget : ∀ c ∈ target, isWordChar c = true)
    (hword : ∀ c ∈ word, isWordChar c = true) (hrest : startsOutsideWord rest = true)
    (also : List Char → Bool) :
    (match behind? target (word ++ rest) with
      | some before => startsOutsideWord before && also before
      | none => false) = (word == target && also rest) := by
  by_cases heq : word = target
  · simp [heq, hrest]
  · have hne : (word == target) = false := by simpa using heq
    rw [hne, Bool.false_and]
    split
    · rename_i before hbefore
      rw [behind?_eq_some_iff] at hbefore
      rcases List.append_eq_append_iff.1 hbefore with ⟨more, rfl, rfl⟩ | ⟨more, rfl, rfl⟩
      · cases more with
        | nil => exact absurd (List.append_nil target) heq
        | cons c more => simp [startsOutsideWord, hword c (by simp)]
      · cases more with
        | nil => exact absurd (List.append_nil word).symm heq
        | cons c more =>
            rw [List.cons_append, startsOutsideWord, htarget c (by simp)] at hrest
            cases hrest
    · rfl

theorem startsWithWord_of_isWord (words : List (List Char)) (word : List Char)
    (hwords : ∀ other ∈ words, IsWord other) (h : IsWord word) :
    startsWithWord words word = words.contains word := by
  induction words with
  | nil => rfl
  | cons other words ih =>
      have hsame := behind?_word other word [] (hwords other (by simp)).wordy h.wordy rfl
        fun _ => true
      have hrest := ih fun next hnext => hwords next (by simp [hnext])
      simp only [List.append_nil, Bool.and_true] at hsame
      calc
        startsWithWord (other :: words) word
            = (word == other || startsWithWord words word) :=
              congrArg (· || startsWithWord words word) hsame
        _ = (other :: words).contains word := by rw [hrest, List.contains_cons]

theorem hasWord_false_of_wordy (words : List (List Char)) (text : List Char)
    (h : ∀ c ∈ text, isWordChar c = true) : hasWord words false text = false := by
  induction text with
  | nil => rfl
  | cons c rest ih =>
      rw [hasWord, h c (by simp), Bool.false_and, Bool.false_or]
      exact ih fun d hd => h d (by simp [hd])

/-- A word holds one of some words exactly if it is one of them. -/
theorem hasWord_of_isWord (words : List (List Char)) (word : List Char)
    (hwords : ∀ other ∈ words, IsWord other) (h : IsWord word) :
    hasWord words true word = words.contains word := by
  have hstart := startsWithWord_of_isWord words word hwords h
  obtain ⟨c, rest, rfl⟩ := List.exists_cons_of_ne_nil h.ne_nil
  rw [hasWord, hstart, h.wordy c (by simp), Bool.true_and, Bool.not_true,
    hasWord_false_of_wordy words rest fun d hd => h.wordy d (by simp [hd]), Bool.or_false]

theorem isWord_of_mem_nonTypeWords (word : List Char) (h : word ∈ nonTypeWords) : IsWord word := by
  have hne : [] ∉ nonTypeWords := by decide +kernel
  have hwordy : ∀ word ∈ nonTypeWords, ∀ c ∈ word, isWordChar c = true := by decide +kernel
  exact ⟨fun hnil => hne (hnil ▸ h), hwordy word h⟩

end RecordText.Source
