import RecordText.Proofs.MemberSegments

/-!
# Unfinished pieces in front of an override

A piece of a class body that no semicolon or block ends is read together with
what comes behind it. If that is the signature of an override, the two are read
as an override in two cases only: the piece overrides `ToString` itself, or it
has neither a parenthesis nor an equals sign behind its attributes. In all other
cases nothing is read, neither an override nor a property.

## Main statements

* `overridesToString_append_signature`: when a declaration that goes on with the
  signature is an override.
* `declared?_piece_head`: what the segment of a piece and a signature declares.
-/

namespace RecordText.Source

open RecordText.Text

/-! ### Attributes in front of a piece -/

/-- Attributes are looked for behind the blanks at the front. -/
theorem skipAttributes_eq_of_trimStart (text other : List Char)
    (h : trimStart text = trimStart other) : skipAttributes text = skipAttributes other := by
  by_cases hbracket : ∃ inside, trimStart other = '[' :: inside
  · obtain ⟨inside, hopen⟩ := hbracket
    cases hclose : afterBracket? inside with
    | none =>
        rw [skipAttributes_of_unclosed text inside (h.trans hopen) hclose,
          skipAttributes_of_unclosed other inside hopen hclose]
    | some rest =>
        rw [skipAttributes_of_closed text inside rest (h.trans hopen) hclose,
          skipAttributes_of_closed other inside rest hopen hclose]
  · rw [not_exists] at hbracket
    rw [skipAttributes_of_ne other hbracket, skipAttributes_of_ne text (by rwa [h]), h]

theorem skipAttributes_blanks (blanks rest : List Char) (h : ∀ c ∈ blanks, isBlank c = true) :
    skipAttributes (blanks ++ rest) = skipAttributes rest :=
  skipAttributes_eq_of_trimStart _ _ (List.dropWhile_append_of_pos h)

theorem afterBracket?_of_not_mem (text : List Char) (h : ']' ∉ text) :
    afterBracket? text = none := by
  induction text with
  | nil => rfl
  | cons c rest ih =>
      rw [List.mem_cons, not_or] at h
      rw [afterBracket?, if_neg (Ne.symm h.1), ih h.2]

/-- Attributes end in front of a text without closing brackets or are not closed at all. -/
theorem skipAttributes_append (piece behind : List Char) (h : ']' ∉ behind) :
    skipAttributes (piece ++ behind) =
      if skipAttributes piece = [] then skipAttributes behind
      else skipAttributes piece ++ behind := by
  induction hlen : piece.length using Nat.strong_induction_on generalizing piece with
  | _ n ih =>
    subst hlen
    cases htrim : trimStart piece with
    | nil =>
        have hblanks : ∀ c ∈ piece, isBlank c = true := List.dropWhile_eq_nil_iff.1 htrim
        have hnone : skipAttributes piece = [] := by
          rw [skipAttributes_of_ne piece (by simp [htrim]), htrim]
        rw [skipAttributes_blanks piece behind hblanks, if_pos hnone]
    | cons c rest =>
        have hwhole := trimStart_append_of_cons piece behind rest c htrim
        by_cases hc : c = '['
        · subst hc
          by_cases hmem : ']' ∈ rest
          · obtain ⟨inside, more, rfl, hinside⟩ := List.eq_append_cons_of_mem hmem
            have hlt : more.length < piece.length := by
              have hle := (List.dropWhile_suffix isBlank (l := piece)).length_le
              rw [← trimStart, htrim] at hle
              simp only [List.length_cons, List.length_append] at hle
              omega
            rw [List.append_assoc, List.cons_append] at hwhole
            rw [skipAttributes_of_closed _ _ _ htrim (afterBracket?_append _ _ hinside),
              skipAttributes_of_closed _ _ _ hwhole (afterBracket?_append _ _ hinside)]
            exact ih more.length hlt more rfl
          · have hbehind : ']' ∉ rest ++ behind := by simp [hmem, h]
            rw [skipAttributes_of_unclosed _ _ htrim (afterBracket?_of_not_mem _ hmem),
              skipAttributes_of_unclosed _ _ hwhole (afterBracket?_of_not_mem _ hbehind)]
            rfl
        · rw [skipAttributes_of_ne _ (by simp [hwhole, hc]),
            skipAttributes_of_ne _ (by simp [htrim, hc]), hwhole, htrim]
          rfl

/-! ### A signature behind a piece -/

/-- A declaration with a parenthesis is an override if the parenthesis is closed at once and the
text in front of it ends with the name behind the word `override`. -/
theorem overridesToString_of_paren (front behind : List Char) (h : '(' ∉ front) :
    overridesToString (front ++ '(' :: behind) =
      (closesFirst (trimStart behind) && front.all (· ≠ '=') &&
        endsOverride (behind? toStringReversed (front.reverse.dropWhile isBlank))) := by
  obtain ⟨htake, hdrop⟩ := takeWhile_dropWhile_of_stop (p := (· ≠ '(')) front ('(' :: behind)
    (forall_ne_of_not_mem front '(' h) (by simp)
  rw [overridesToString_of_cons _ '(' behind hdrop, htake]

/-- The signature of an override, up to the name. -/
def signatureWords : List Char := "public override string ".toList

theorem overrideSignature_eq :
    overrideSignature = signatureWords ++ ("ToString".toList ++ ['(', ')']) := by
  decide +kernel

/-- In front of the name the word `override` is found, whatever stands before the signature. -/
theorem hasOverride_signatureWords (before : List Char) :
    hasOverride false (signatureWords.reverse ++ before) = true := by
  have hstring : IsWord "gnirts".toList := ⟨by decide, by decide⟩
  have hoverride : IsWord overrideReversed := ⟨by decide, isWordChar_overrideReversed⟩
  have hwords : signatureWords.reverse ++ before =
      ' ' :: ("gnirts".toList ++ (' ' :: (overrideReversed ++ (" cilbup".toList ++ before)))) := by
    have hreverse : signatureWords.reverse =
        ' ' :: ("gnirts".toList ++ (' ' :: (overrideReversed ++ " cilbup".toList))) := by
      decide +kernel
    rw [hreverse]
    simp
  rw [hwords, hasOverride_blank _ _ _ (by decide), hasOverride_word _ _ hstring rfl,
    hasOverride_blank _ _ _ (by decide), hasOverride_word _ _ hoverride rfl]
  simp

/-- Whether a parenthesis is closed at once does not depend on a signature behind. -/
theorem closes_append_signature (behind blanks : List Char)
    (hblanks : ∀ c ∈ blanks, isBlank c = true) :
    closesFirst (trimStart (behind ++ (blanks ++ overrideSignature))) =
      closesFirst (trimStart behind) := by
  cases htrim : trimStart behind with
  | nil =>
      have hblank : ∀ c ∈ behind ++ blanks, isBlank c = true :=
        List.forall_mem_append.2 ⟨List.dropWhile_eq_nil_iff.1 htrim, hblanks⟩
      rw [← List.append_assoc, trimStart, List.dropWhile_append_of_pos hblank]
      decide +kernel
  | cons c rest =>
      rw [trimStart_append_of_cons behind _ rest c htrim, closesFirst_cons, closesFirst_cons]

/-- A signature behind a text without a parenthesis and without an equals sign is an override. -/
theorem overridesToString_signature (declaration blanks : List Char)
    (hblanks : ∀ c ∈ blanks, isBlank c = true) (hparen : '(' ∉ declaration)
    (hequals : '=' ∉ declaration) :
    overridesToString (declaration ++ (blanks ++ overrideSignature)) = true := by
  have hblank : ∀ sign ∈ ['(', '='], isBlank sign = false := by decide
  have hwords : ∀ sign ∈ ['(', '='], sign ∉ signatureWords ++ "ToString".toList := by decide
  have hplain : ∀ sign ∈ ['(', '='], sign ∉ declaration →
      sign ∉ declaration ++ (blanks ++ (signatureWords ++ "ToString".toList)) := by
    intro sign hsign hnot hmem
    rcases List.mem_append.1 hmem with hmem | hmem
    · exact hnot hmem
    rcases List.mem_append.1 hmem with hmem | hmem
    · exact ne_of_isBlank sign sign (hblanks sign hmem) (hblank sign hsign) rfl
    · exact hwords sign hsign hmem
  have hsplit : declaration ++ (blanks ++ overrideSignature) =
      declaration ++ (blanks ++ (signatureWords ++ "ToString".toList)) ++ '(' :: [')'] := by
    rw [overrideSignature_eq]
    simp
  have hreverse : (declaration ++ (blanks ++ (signatureWords ++ "ToString".toList))).reverse =
      toStringReversed ++ (signatureWords.reverse ++ (declaration ++ blanks).reverse) := by
    simp [toStringReversed]
  have hdrop : ∀ before, (toStringReversed ++ before).dropWhile isBlank =
      toStringReversed ++ before := fun before => rfl
  rw [hsplit, overridesToString_of_paren _ _ (hplain '(' (by simp) hparen), hreverse, hdrop,
    behind?_append, endsOverride, hasOverride_signatureWords,
    List.all_eq_true.2 (forall_ne_of_not_mem _ '=' (hplain '=' (by simp) hequals))]
  rfl

/-- A declaration that goes on with the signature of an override is one if it was one before or
the signature has the first parenthesis and no equals sign stands in front of it. -/
theorem overridesToString_append_signature (declaration blanks : List Char)
    (hblanks : ∀ c ∈ blanks, isBlank c = true) :
    overridesToString (declaration ++ (blanks ++ overrideSignature)) =
      (overridesToString declaration || declaration.all fun c => c ≠ '(' && c ≠ '=') := by
  by_cases hparen : '(' ∈ declaration
  · have hall : (declaration.all fun c => c ≠ '(' && c ≠ '=') = false :=
      List.all_eq_false.2 ⟨'(', hparen, by decide⟩
    obtain ⟨front, behind, rfl, hfront⟩ := List.eq_append_cons_of_mem hparen
    rw [hall, Bool.or_false, List.append_assoc, List.cons_append,
      overridesToString_of_paren front _ hfront, overridesToString_of_paren front _ hfront,
      closes_append_signature behind blanks hblanks]
  · rw [overridesToString_of_no_paren declaration hparen, Bool.false_or]
    by_cases hequals : '=' ∈ declaration
    · have hall : (declaration.all fun c => c ≠ '(' && c ≠ '=') = false :=
        List.all_eq_false.2 ⟨'=', hequals, by decide⟩
      obtain ⟨front, behind, rfl, -⟩ := List.eq_append_cons_of_mem hequals
      rw [hall, List.append_assoc, List.cons_append]
      exact overridesToString_of_equals front _ fun hmem => hparen (by simp [hmem])
    · have hall : (declaration.all fun c => c ≠ '(' && c ≠ '=') = true := by
        rw [List.all_eq_true]
        intro c hc
        have hc' : c ≠ '(' ∧ c ≠ '=' :=
          ⟨fun heq => hparen (heq ▸ hc), fun heq => hequals (heq ▸ hc)⟩
        simp [hc']
      rw [hall, overridesToString_signature declaration blanks hblanks hparen hequals]

/-! ### Nothing is read -/

/-- A declaration with an equals sign is at most a property with an arrow. -/
theorem arrow_of_readProperty? (declaration : List Char) (parts : PropertyParts)
    (h : '=' ∈ declaration) (hread : readProperty? declaration = some parts) :
    parts.arrow = true := by
  obtain ⟨front, behind, rfl, hfront⟩ := List.eq_append_cons_of_mem h
  rw [readProperty?_eq] at hread
  obtain ⟨arrow, harrow, hparts⟩ := Option.bind_eq_some_iff.1 hread
  have hsame : parts.arrow = arrow := by
    unfold readFront? at hparts
    dsimp only at hparts
    split_ifs at hparts
    cases hparts
    rfl
  have hdrop := (takeWhile_dropWhile_of_stop (p := (· ≠ '=')) front ('=' :: behind)
    (forall_ne_of_not_mem front '=' hfront) (by simp)).2
  rw [hdrop] at harrow
  unfold arrow? at harrow
  split at harrow
  · next heq => cases heq
  · rw [hsame]
    exact (Option.some.inj harrow).symm
  · cases harrow

/-- A declaration without an equals sign is no property if its last word is no name. -/
theorem readProperty?_eq_none_of_lastWord (front word : List Char) (b : Char)
    (hequals : '=' ∉ front ++ b :: word) (hb : isBlank b = true) (hne : word ≠ [])
    (hword : ∀ c ∈ word, isBlank c = false) (hname : isName word = false) :
    readProperty? (front ++ b :: word) = none := by
  have hall : ∀ c ∈ front ++ b :: word, decide (c ≠ '=') = true :=
    forall_ne_of_not_mem _ '=' hequals
  have htake : (front ++ b :: word).takeWhile (· ≠ '=') = front ++ b :: word :=
    List.takeWhile_eq_self_iff.2 hall
  have hdrop : (front ++ b :: word).dropWhile (· ≠ '=') = [] :=
    List.dropWhile_eq_nil_iff.2 hall
  have htrim : trimEnd (front ++ b :: word) = front ++ b :: word := by
    have hlast : ∀ c ∈ (front ++ b :: word).getLast?, isBlank c = false := by
      intro c hc
      refine hword c (List.mem_of_getLast? ?_)
      obtain ⟨d, word, rfl⟩ := List.exists_cons_of_ne_nil hne
      simpa [List.getLast?_append, List.getLast?_cons] using hc
    have hend := trimEnd_append_blanks (front ++ b :: word) [] (by simp) hlast
    rwa [List.append_nil] at hend
  have hreverse : ((front ++ b :: word).reverse.takeWhile (!isBlank ·)).reverse = word := by
    have hsplit : (front ++ b :: word).reverse = word.reverse ++ b :: front.reverse := by simp
    have hstop := (takeWhile_dropWhile_of_stop (p := (!isBlank ·)) word.reverse (b :: front.reverse)
      (fun c hc => by simp [hword c (List.mem_reverse.1 hc)]) (by simp [hb])).1
    rw [hsplit, hstop, List.reverse_reverse]
  rw [readProperty?_eq, hdrop, htake, htrim]
  simp only [arrow?, Option.bind_some, readFront?, hreverse, hname, Bool.false_and,
    Bool.false_eq_true, if_false]

/-- A segment in front of a block declares nothing if it is no override and goes on with the
signature of one. -/
theorem declared?_append_signature (text declaration blanks : List Char)
    (hdeclaration : trimEnd (skipAttributes text) = declaration ++ (blanks ++ overrideSignature))
    (hoverride : overridesToString (declaration ++ (blanks ++ overrideSignature)) = false) :
    Segment.declared? { text, terminator := .brace } = none := by
  have hne : declaration ++ (blanks ++ overrideSignature) ≠ [] := by
    rw [overrideSignature_eq]
    simp
  rw [declared?_of_not_override _ _ hdeclaration hne hoverride]
  by_cases hequals : '=' ∈ declaration ++ (blanks ++ overrideSignature)
  · cases hread : readProperty? (declaration ++ (blanks ++ overrideSignature)) with
    | none => rfl
    | some parts =>
        have harrow := arrow_of_readProperty? _ parts hequals hread
        simp [PropertyParts.isField, harrow]
  · have hsplit : declaration ++ (blanks ++ overrideSignature) =
        declaration ++ (blanks ++ "public override string".toList) ++
          ' ' :: "ToString()".toList := by
      have hsignature : overrideSignature =
          "public override string".toList ++ ' ' :: "ToString()".toList := by decide +kernel
      rw [hsignature]
      simp
    rw [hsplit] at hequals ⊢
    rw [readProperty?_eq_none_of_lastWord _ _ ' ' hequals rfl (by decide) (by decide) (by decide)]
    rfl

/-- Whether an override behind an unfinished piece of a class body is still read as one. -/
def takesOverride (piece : List Char) : Bool :=
  let declaration := skipAttributes piece
  overridesToString declaration || declaration.all fun c => c ≠ '(' && c ≠ '='

theorem OverrideText.not_mem_head (override : OverrideText) : ']' ∉ override.head := by
  intro hmem
  simp only [OverrideText.head, List.mem_append] at hmem
  rcases hmem with (hlead | hsignature) | hgap
  · exact ne_of_isBlank ']' ']' (override.lead_blank _ hlead) (by decide) rfl
  · exact absurd hsignature (by decide)
  · exact ne_of_isBlank ']' ']' (override.gap_blank _ hgap) (by decide) rfl

/-- What a piece declares together with the signature of an override behind it: an override or
nothing. -/
theorem declared?_piece_head (piece : List Char) (override : OverrideText) :
    Segment.declared? { text := piece ++ override.head, terminator := .brace } =
      if takesOverride piece then some .toStringOverride else none := by
  have hskip := skipAttributes_append piece override.head override.not_mem_head
  by_cases hnone : skipAttributes piece = []
  · have htakes : takesOverride piece = true := by
      rw [takesOverride, hnone]
      decide
    have hsame := declared?_overrideSignature _ _ override.lead_blank override.gap_blank .brace
    rw [if_pos hnone] at hskip
    rw [htakes, if_pos rfl, ← hsame]
    simp only [Segment.declared?, hskip]
    rfl
  · have hoverride : overridesToString (skipAttributes piece ++ (override.lead ++
        overrideSignature)) = takesOverride piece :=
      overridesToString_append_signature _ _ override.lead_blank
    have hdeclaration : trimEnd (skipAttributes (piece ++ override.head)) =
        skipAttributes piece ++ (override.lead ++ overrideSignature) := by
      have hlast : ∀ c ∈ (skipAttributes piece ++ (override.lead ++ overrideSignature)).getLast?,
          isBlank c = false := by
        have hend : overrideSignature.getLast? = some ')' := by decide +kernel
        rw [List.getLast?_append, List.getLast?_append, hend]
        simp
        decide
      have htrim := trimEnd_append_blanks _ override.gap override.gap_blank hlast
      rw [if_neg hnone] at hskip
      rw [hskip, OverrideText.head]
      simpa only [List.append_assoc] using htrim
    cases htakes : takesOverride piece with
    | false =>
        rw [htakes] at hoverride
        exact declared?_append_signature _ _ _ hdeclaration hoverride
    | true =>
        rw [htakes] at hoverride
        have hne : (skipAttributes piece ++ (override.lead ++ overrideSignature)).isEmpty =
            false := by
          rw [overrideSignature_eq]
          simp
        simp only [Segment.declared?, hdeclaration, hne, hoverride, if_true,
          Bool.false_eq_true, if_false]

end RecordText.Source
