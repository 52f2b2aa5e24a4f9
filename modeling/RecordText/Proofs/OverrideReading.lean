import RecordText.Proofs.MemberReading

/-!
# How overrides are read

A declaration is read as an override of `ToString` if a parameter list without
parameters follows the name and the word `override` stands in front of it. The
declaration is searched from its parenthesis backwards, word by word. Behind the
signature of a member the search therefore finds the word exactly if it is one
of the modifiers.
-/

namespace RecordText.Source

open RecordText.Text

theorem overrideReversed_eq : overrideReversed = 'e' :: overrideReversed.tail := by
  decide

theorem isWordChar_overrideReversed : ∀ c ∈ overrideReversed, isWordChar c = true := by
  decide +kernel

theorem isWordChar_toStringReversed : ∀ c ∈ toStringReversed, isWordChar c = true := by
  decide +kernel

/-- A sign that neither starts the reversed word nor is a point is passed over. -/
theorem hasOverride_cons_of_ne (outside : Bool) (c : Char) (rest : List Char) (hpoint : c ≠ '.')
    (hc : c ≠ 'e') : hasOverride outside (c :: rest) = hasOverride (!isWordChar c) rest := by
  have hbehind : behind? overrideReversed (c :: rest) = none := by
    rw [overrideReversed_eq, behind?, if_neg (Ne.symm hc)]
  rw [hasOverride, if_neg hpoint, hbehind, Bool.and_false, Bool.false_or]

theorem hasOverride_blank (outside : Bool) (b : Char) (rest : List Char) (hb : isBlank b = true) :
    hasOverride outside (b :: rest) = hasOverride true rest := by
  have hpoint : b ≠ '.' := ne_of_isBlank b _ hb (by decide)
  have hletter : b ≠ 'e' := ne_of_isBlank b _ hb (by decide)
  rw [hasOverride_cons_of_ne outside b rest hpoint hletter, not_isWordChar_of_isBlank b hb,
    Bool.not_false]

/-- Behind blanks the search is outside of words. -/
theorem hasOverride_blanks (blanks rest : List Char) (hblanks : ∀ c ∈ blanks, isBlank c = true) :
    hasOverride true (blanks ++ rest) = hasOverride true rest := by
  induction blanks with
  | nil => rfl
  | cons b blanks ih =>
      rw [List.cons_append, hasOverride_blank true b _ (hblanks b (by simp))]
      exact ih fun c hc => hblanks c (by simp [hc])

theorem hasOverride_gap (outside : Bool) (gap : Gap) (rest : List Char) :
    hasOverride outside (gap.text.reverse ++ rest) = hasOverride true rest := by
  have hblanks : ∀ c ∈ gap.text.reverse, isBlank c = true :=
    fun c hc => gap.blank c (List.mem_reverse.1 hc)
  obtain ⟨b, blanks, heq⟩ : ∃ b blanks, gap.text.reverse = b :: blanks :=
    List.exists_cons_of_ne_nil (by simp [Gap.text])
  rw [heq] at hblanks ⊢
  rw [List.cons_append, hasOverride_blank outside b _ (hblanks b (by simp))]
  exact hasOverride_blanks blanks rest fun c hc => hblanks c (by simp [hc])

/-- Inside a word the search finds nothing. -/
theorem hasOverride_inside (word rest : List Char) (h : ∀ c ∈ word, isWordChar c = true) :
    hasOverride false (word ++ rest) = hasOverride false rest := by
  induction word with
  | nil => rfl
  | cons c word ih =>
      have hc := h c (by simp)
      have hpoint : c ≠ '.' := ne_of_isWordChar c _ hc (by decide)
      rw [List.cons_append, hasOverride, if_neg hpoint, hc, Bool.false_and, Bool.false_or]
      exact ih fun d hd => h d (by simp [hd])

/-- A whole word is found exactly if it is the word `override`. -/
theorem hasOverride_word (word rest : List Char) (hword : IsWord word)
    (hrest : startsOutsideWord rest = true) :
    hasOverride true (word ++ rest) = (word == overrideReversed || hasOverride false rest) := by
  have hsame := behind?_word overrideReversed word rest isWordChar_overrideReversed hword.wordy
    hrest fun _ => true
  simp only [Bool.and_true] at hsame
  obtain ⟨c, tail, rfl⟩ := List.exists_cons_of_ne_nil hword.ne_nil
  have hc := hword.wordy c (by simp)
  have hpoint : c ≠ '.' := ne_of_isWordChar c _ hc (by decide)
  have htail := hasOverride_inside tail rest fun d hd => hword.wordy d (by simp [hd])
  rw [List.cons_append] at hsame ⊢
  rw [hasOverride, if_neg hpoint, Bool.true_and, hc, Bool.not_true, htail]
  exact congrArg (· || hasOverride false rest) hsame

theorem IsWord.reverse {word : List Char} (h : IsWord word) : IsWord word.reverse :=
  ⟨by simpa using h.ne_nil, fun c hc => h.wordy c (List.mem_reverse.1 hc)⟩

theorem Gap.startsOutsideWord_reverse (gap : Gap) (rest : List Char) :
    startsOutsideWord (gap.text.reverse ++ rest) = true := by
  have hhead := gap.head?_reverse rest
  cases htext : gap.text.reverse ++ rest with
  | nil => rfl
  | cons c tail =>
      have hc := hhead c (by simp [htext])
      rw [startsOutsideWord, not_isWordChar_of_isBlank c hc, Bool.not_false]

/-- In front of a word that ends the text the search goes through the modifiers, from the last one
to the first one. -/
theorem hasOverride_modifiersText (items : List (Modifier × Gap)) (word : List Char)
    (hword : IsWord word) :
    hasOverride true (word.reverse ++ (modifiersText items).reverse) =
      (word == "override".toList || (modifierWords items).contains "override".toList) := by
  have hreverse : ∀ word : List Char,
      (word.reverse == overrideReversed) = (word == "override".toList) := by
    intro word
    rw [Bool.eq_iff_iff, beq_iff_eq, beq_iff_eq, overrideReversed, List.reverse_inj]
  induction items using List.reverseRecOn generalizing word with
  | nil =>
      rw [hasOverride_word word.reverse _ hword.reverse rfl, hreverse]
      rfl
  | append_singleton init item ih =>
      have htext : (modifiersText (init ++ [item])).reverse =
          item.2.text.reverse ++ (item.1.1.reverse ++ (modifiersText init).reverse) := by
        simp [modifiersText]
      have hwords : modifierWords (init ++ [item]) = modifierWords init ++ [item.1.1] := by
        simp [modifierWords]
      have hitem := isWord_of_mem_modifiers item.1.1 item.1.2
      rw [htext, hasOverride_word word.reverse _ hword.reverse (item.2.startsOutsideWord_reverse _),
        hasOverride_gap, ih item.1.1 hitem, hreverse, hwords, Bool.eq_iff_iff]
      simp only [Bool.or_eq_true, beq_iff_eq, List.contains_iff_mem, List.mem_append,
        List.mem_singleton]
      grind

/-- Whether a closing parenthesis comes first. -/
def closesFirst : List Char → Bool
  | ')' :: _ => true
  | _ => false

theorem closesFirst_cons (c : Char) (rest : List Char) : closesFirst (c :: rest) = (c == ')') := by
  unfold closesFirst
  split
  · rename_i heq
    rw [(List.cons.inj heq).1]
    rfl
  · rename_i hne
    exact (beq_eq_false_iff_ne.2 fun hc => hne rest (by rw [hc])).symm

/-- Whether the reversed text in front of a name ends a word and holds the word `override`. -/
def endsOverride : Option (List Char) → Bool
  | some before => startsOutsideWord before && hasOverride false before
  | none => false

theorem overridesToString_of_nil (declaration : List Char)
    (h : declaration.dropWhile (· ≠ '(') = []) : overridesToString declaration = false := by
  simp only [overridesToString, h]

theorem overridesToString_of_cons (declaration : List Char) (c : Char) (behind : List Char)
    (h : declaration.dropWhile (· ≠ '(') = c :: behind) :
    overridesToString declaration =
      (closesFirst (trimStart behind) && (declaration.takeWhile (· ≠ '(')).all (· ≠ '=') &&
        endsOverride (behind? toStringReversed
          ((declaration.takeWhile (· ≠ '(')).reverse.dropWhile isBlank))) := by
  simp only [overridesToString, h]
  rfl

theorem overridesToString_of_no_paren (declaration : List Char) (h : '(' ∉ declaration) :
    overridesToString declaration = false := by
  have hdrop : declaration.dropWhile (· ≠ '(') = [] := by
    rw [List.dropWhile_eq_nil_iff]
    exact forall_ne_of_not_mem declaration '(' h
  simp only [overridesToString, hdrop]

/-- A parenthesis behind an equals sign belongs to a value. -/
theorem overridesToString_of_equals (front back : List Char) (h : '(' ∉ front) :
    overridesToString (front ++ '=' :: back) = false := by
  have hequals : ((front ++ '=' :: back).takeWhile (· ≠ '(')).all (· ≠ '=') = false := by
    rw [List.takeWhile_append_of_pos (forall_ne_of_not_mem front '(' h),
      List.takeWhile_cons_of_pos (by decide), List.all_eq_false]
    exact ⟨'=', by simp, by decide⟩
  unfold overridesToString
  dsimp only
  rw [hequals]
  split
  · rfl
  · rw [Bool.and_false, Bool.false_and]

/-- What stands behind a parenthesis closes the parameters at once exactly if only blanks stand
between the parentheses. -/
theorem closesParameters (parameters : List Char) (h : ')' ∉ parameters) :
    (match trimStart (parameters ++ [')']) with
      | ')' :: _ => true
      | _ => false) = allBlank parameters := by
  induction parameters with
  | nil => decide
  | cons c parameters ih =>
      rw [List.mem_cons, not_or] at h
      by_cases hc : isBlank c = true
      · have htrim : trimStart (c :: parameters ++ [')']) = trimStart (parameters ++ [')']) := by
          rw [List.cons_append, trimStart, List.dropWhile_cons_of_pos hc, trimStart]
        have hall : allBlank (c :: parameters) = allBlank parameters := by
          rw [allBlank, List.all_cons, hc, Bool.true_and, allBlank]
        rw [htrim, hall, ih h.2]
      · have htrim : trimStart (c :: parameters ++ [')']) = c :: (parameters ++ [')']) := by
          rw [List.cons_append, trimStart, List.dropWhile_cons_of_neg hc]
        have hall : allBlank (c :: parameters) = false := by
          rw [allBlank, List.all_cons, Bool.eq_false_iff.2 hc, Bool.false_and]
        rw [htrim, hall]
        split
        · rename_i heq
          exact absurd (List.cons.inj heq).1.symm h.1
        · rfl

/-- The text in front of a bare name, in reverse. -/
theorem hasOverride_front (items : List (Modifier × Gap)) (word : List Char) (gap : Gap)
    (hword : IsWord word) (hmodifier : word ∉ modifiers) (escape : List Char)
    (hescape : escape = [] ∨ escape = ['@']) :
    hasOverride false (escape ++ (gap.text.reverse ++ (word.reverse ++
        (modifiersText items).reverse))) =
      (modifierWords items).contains "override".toList := by
  have hgap : ∀ outside, hasOverride outside (gap.text.reverse ++ (word.reverse ++
        (modifiersText items).reverse)) = (modifierWords items).contains "override".toList := by
    intro outside
    have hne : (word == "override".toList) = false := by
      rw [beq_eq_false_iff_ne]
      rintro rfl
      exact hmodifier (by decide +kernel)
    rw [hasOverride_gap, hasOverride_modifiersText items word hword, hne, Bool.false_or]
  rcases hescape with rfl | rfl
  · exact hgap false
  · rw [List.singleton_append, hasOverride_cons_of_ne false '@' _ (by decide) (by decide)]
    exact hgap _

/-- A name is its bare form behind its at sign, if it has one. -/
theorem NameText.exists_escape (name : NameText) :
    ∃ escape bare, (escape = [] ∨ escape = ['@']) ∧ name.text = escape ++ bare ∧
      (Language.csharp.splitEscape name.text).2 = bare ∧ ∀ c ∈ bare, isWordChar c = true := by
  obtain ⟨bare, hbare, hform, hwordy⟩ := name.exists_bare
  rcases hbare with heq | heq
  · refine ⟨[], bare, Or.inl rfl, heq, ?_, hwordy⟩
    rw [heq, Language.csharp.splitEscape_of_isBareForm bare hform]
  · refine ⟨['@'], bare, Or.inr rfl, heq, ?_, hwordy⟩
    rw [heq, splitEscape_at]

/-- A signature ends with the name `ToString` of an override exactly if it has the name and the
modifier. -/
theorem endsOverride_signature (items : List (Modifier × Gap)) (word : List Char) (gap : Gap)
    (name : NameText) (hword : IsWord word) (hmodifier : word ∉ modifiers) :
    (match behind? toStringReversed (signature items word gap name).reverse with
      | some before => startsOutsideWord before && hasOverride false before
      | none => false) =
      ((Language.csharp.splitEscape name.text).2 == "ToString".toList &&
        (modifierWords items).contains "override".toList) := by
  obtain ⟨escape, bare, hescape, hname, hbare, hwordy⟩ := name.exists_escape
  have hreverse : (signature items word gap name).reverse =
      bare.reverse ++ (escape ++ (gap.text.reverse ++ (word.reverse ++
        (modifiersText items).reverse))) := by
    have hsame : escape.reverse = escape := by
      rcases hescape with rfl | rfl <;> rfl
    rw [signature, hname]
    simp [hsame]
  have houtside : startsOutsideWord (escape ++ (gap.text.reverse ++ (word.reverse ++
      (modifiersText items).reverse))) = true := by
    rcases hescape with rfl | rfl
    · exact gap.startsOutsideWord_reverse _
    · rw [List.singleton_append, startsOutsideWord]
      decide
  have hsame : (bare.reverse == toStringReversed) = (bare == "ToString".toList) := by
    rw [Bool.eq_iff_iff, beq_iff_eq, beq_iff_eq, toStringReversed, List.reverse_inj]
  have hends := behind?_word toStringReversed bare.reverse _ isWordChar_toStringReversed
    (fun c hc => hwordy c (List.mem_reverse.1 hc)) houtside (hasOverride false)
  rw [← hreverse, hsame, hasOverride_front items word gap hword hmodifier escape hescape] at hends
  rw [hbare]
  exact hends

/-- A method is read as an override of `ToString` exactly if it has the modifier and the name and
no parameters. -/
theorem overridesToString_method (items : List (Modifier × Gap)) (word : List Char) (gap : Gap)
    (name : NameText) (hword : IsWord word) (hmodifier : word ∉ modifiers)
    (blanks parameters : List Char) (hblanks : ∀ c ∈ blanks, isBlank c = true)
    (hparameters : ')' ∉ parameters) :
    overridesToString (signature items word gap name ++
        (blanks ++ '(' :: (parameters ++ [')']))) =
      ((modifierWords items).contains "override".toList &&
        (Language.csharp.splitEscape name.text).2 == "ToString".toList && allBlank parameters) := by
  have hplain := not_mem_signature_append items word gap name hword blanks hblanks
  have hparen := hplain '(' (by decide)
  have hequals : (signature items word gap name ++ blanks).all (· ≠ '=') = true :=
    List.all_eq_true.2 (forall_ne_of_not_mem _ '=' (hplain '=' (by decide)))
  obtain ⟨htake, hdrop⟩ := takeWhile_dropWhile_of_stop (p := (· ≠ '('))
    (signature items word gap name ++ blanks) ('(' :: (parameters ++ [')']))
    (forall_ne_of_not_mem _ '(' hparen) (by simp)
  rw [List.append_assoc] at htake hdrop
  have htrim : (signature items word gap name ++ blanks).reverse.dropWhile isBlank =
      (signature items word gap name).reverse := by
    have hend := trimEnd_append_blanks _ blanks hblanks (getLast?_signature items word gap name)
    exact List.reverse_eq_iff.1 hend
  have hcloses := closesParameters parameters hparameters
  have hends := endsOverride_signature items word gap name hword hmodifier
  unfold overridesToString
  dsimp only
  rw [htake, hdrop, hequals, htrim]
  calc
    _ = (allBlank parameters && true &&
          ((Language.csharp.splitEscape name.text).2 == "ToString".toList &&
            (modifierWords items).contains "override".toList)) :=
      congrArg₂ (fun closes ends => closes && true && ends) hcloses hends
    _ = _ := by
      rw [Bool.and_true, Bool.and_comm, Bool.and_comm (_ == _)]

end RecordText.Source
