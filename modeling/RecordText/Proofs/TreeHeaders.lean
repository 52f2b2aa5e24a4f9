import RecordText.Proofs.ClassTree
import RecordText.Proofs.OverrideText

/-!
# Headers in the text of a class tree

The search for headers passes over every part of a class tree's text except the
word `class` and the name in the head of a class. In front of a head stand
neither a colon nor a comma nor an at sign, so the head declares a class.
-/

namespace RecordText.Source

open RecordText.Text

/-- The search for headers passes over a text, whatever stands before and behind it. -/
def Skips (piece : List Char) : Prop :=
  ∀ before offset rest, headers before offset (piece ++ rest) =
    headers (piece.reverse ++ before) (offset + byteLength piece) rest

theorem Skips.nil : Skips [] :=
  fun _ _ _ => rfl

theorem Skips.append {front back : List Char} (hfront : Skips front) (hback : Skips back) :
    Skips (front ++ back) := by
  intro before offset rest
  rw [List.append_assoc, hfront, hback]
  simp [Nat.add_assoc]

theorem Skips.flatMap {α : Type} (items : List α) (text : α → List Char)
    (h : ∀ item ∈ items, Skips (text item)) : Skips (items.flatMap text) := by
  induction items with
  | nil => exact Skips.nil
  | cons item items ih =>
      rw [List.flatMap_cons]
      exact (h item (by simp)).append (ih fun other hother => h other (by simp [hother]))

/-- A text is passed over if no header starts in it. -/
theorem Skips.of_headerAt? {piece : List Char}
    (h : ∀ front back, piece = front ++ back → back ≠ [] →
      ∀ before rest, headerAt? (front.reverse ++ before) (back ++ rest) = none) :
    Skips piece :=
  fun before offset rest => headers_skip before offset piece rest fun front back heq hne =>
    h front back heq hne before rest

theorem Skips.of_ne (piece : List Char) (h : 'c' ∉ piece) : Skips piece := by
  apply Skips.of_headerAt?
  intro front back heq hne before rest
  obtain ⟨d, tail, rfl⟩ := List.exists_cons_of_ne_nil hne
  apply headerAt?_eq_none_of_ne
  rintro rfl
  exact h (by simp [heq])

theorem Gap.not_mem (gap : Gap) (c : Char) (hc : isBlank c = false) : c ∉ gap.text :=
  not_mem_of_isBlank gap.text c gap.blank hc

theorem Skips.gap (gap : Gap) : Skips gap.text :=
  Skips.of_ne _ (gap.not_mem 'c' (by decide))

theorem headerAt?_eq_none_of_readHeader? (before text : List Char) (h : readHeader? text = none) :
    headerAt? before text = none := by
  unfold headerAt?
  rw [h]
  split <;> rfl

/-- A text without the letters of the word `class` is passed over in front of another sign. -/
theorem Skips.headerless (piece : List Char) (c : Char) (h : ¬ classWord <:+: piece)
    (hc : c ∉ classWord) : Skips (piece ++ [c]) := by
  apply Skips.of_headerAt?
  intro front back heq hne before rest
  apply headerAt?_eq_none_of_readHeader?
  by_contra hsome
  obtain ⟨found, hfound⟩ := Option.ne_none_iff_exists'.1 hsome
  obtain ⟨htext, -⟩ := (readHeader?_eq_some_iff _ found).1 hfound
  obtain ⟨initial, hinitial⟩ : ∃ initial, back = initial ++ [c] := by
    obtain hnil | ⟨initial, last, hlast⟩ := List.eq_nil_or_concat back
    · exact absurd hnil hne
    · rw [List.concat_eq_append] at hlast
      rw [hlast, ← List.append_assoc] at heq
      obtain ⟨-, hsame⟩ := List.append_inj' heq rfl
      exact ⟨initial, by rw [hlast, hsame]⟩
  rw [hinitial, List.append_assoc, List.singleton_append, HeaderMatch.text, List.append_assoc,
    List.append_assoc] at htext
  obtain ⟨more, hmore, -⟩ := append_eq_append_of_not_mem htext.symm hc
  rw [hinitial, ← List.append_assoc] at heq
  obtain ⟨hpiece, -⟩ := List.append_inj' heq rfl
  exact h ⟨front, more, by rw [hpiece, hmore, List.append_assoc]⟩

theorem Skips.cons (c : Char) (piece : List Char)
    (h : ∀ before rest, headerAt? before (c :: (piece ++ rest)) = none) (hpiece : Skips piece) :
    Skips (c :: piece) := by
  intro before offset rest
  rw [List.cons_append, headers_cons_of_none _ _ _ _ (h before rest), hpiece]
  simp [byteLength, Nat.add_assoc]

/-- A word other than `class` is no header. -/
theorem readHeader?_word (word rest : List Char) (gap : Gap)
    (hword : ∀ c ∈ word, isWordChar c = true) (hne : word ≠ classWord) :
    readHeader? (word ++ (gap.text ++ rest)) = none := by
  by_contra hsome
  obtain ⟨found, hfound⟩ := Option.ne_none_iff_exists'.1 hsome
  obtain ⟨htext, hform⟩ := (readHeader?_eq_some_iff _ found).1 hfound
  have hblank : isBlank gap.first = true := gap.blank _ (by simp)
  have hfirst : gap.first ∉ classWord := by
    intro hmem
    have hnot : ∀ c ∈ classWord, isBlank c = false := by decide
    rw [hnot _ hmem] at hblank
    cases hblank
  rw [HeaderMatch.text, List.append_assoc, List.append_assoc, Gap.text, List.cons_append] at htext
  obtain ⟨more, rfl, hrest⟩ := append_eq_append_of_not_mem htext.symm hfirst
  obtain ⟨blank, tail, hgap⟩ := List.exists_cons_of_ne_nil hform.gap_ne_nil
  cases more with
  | nil => exact hne (by simp)
  | cons d more =>
      rw [hgap, List.cons_append, List.cons_append] at hrest
      obtain ⟨rfl, -⟩ := List.cons.inj hrest
      have hnot := not_isWordChar_of_isBlank blank (hform.gap_blank blank (by simp [hgap]))
      rw [hword blank (by simp)] at hnot
      cases hnot

/-- A word other than `class` is passed over. -/
theorem Skips.word (word : List Char) (gap : Gap) (hword : ∀ c ∈ word, isWordChar c = true)
    (hne : word ≠ classWord) : Skips (word ++ gap.text) := by
  apply Skips.of_headerAt?
  intro front back heq hback before rest
  have hgap : ∀ tail, back ++ rest = gap.first :: tail → headerAt? (front.reverse ++ before)
      (back ++ rest) = none := by
    intro tail htail
    rw [htail]
    apply headerAt?_eq_none_of_ne
    exact ne_of_isBlank _ _ (gap.blank gap.first (by simp)) (by decide)
  rcases List.append_eq_append_iff.1 heq with ⟨passed, rfl, hrest⟩ | ⟨left, rfl, rfl⟩
  · obtain ⟨d, tail, rfl⟩ := List.exists_cons_of_ne_nil hback
    have hblank : isBlank d = true := gap.blank d (by
      have hmem : d ∈ gap.text := by rw [hrest]; simp
      exact hmem)
    apply headerAt?_eq_none_of_ne
    exact ne_of_isBlank d _ hblank (by decide)
  · cases left with
    | nil => exact hgap (gap.more ++ rest) (by simp [Gap.text])
    | cons d left =>
        obtain hnil | ⟨initial, last, hlast⟩ := List.eq_nil_or_concat front
        · subst hnil
          rw [List.nil_append] at hne hword
          rw [List.append_assoc]
          exact headerAt?_eq_none_of_readHeader? _ _ (readHeader?_word _ rest gap hword hne)
        · rw [List.concat_eq_append] at hlast
          have hinside : startsOutsideWord (front.reverse ++ before) = false := by
            have hchar := hword last (by simp [hlast])
            simp [hlast, startsOutsideWord, hchar]
          unfold headerAt?
          rw [hinside]
          rfl

/-- A sign that may follow the name of a member: it neither starts a name nor is a blank. -/
structure IsFollower (c : Char) : Prop where
  not_start : Language.csharp.isNameStart c = false
  not_at : c ≠ '@'
  not_blank : isBlank c = false
  not_word : c ∉ classWord

/-- The escaped word `class` is no header in front of such a sign. -/
theorem readHeader?_class (gap : Gap) (c : Char) (rest : List Char) (hc : IsFollower c) :
    readHeader? (classWord ++ (gap.text ++ c :: rest)) = none := by
  obtain ⟨htake, hdrop⟩ := takeWhile_dropWhile_of_stop gap.text (c :: rest) gap.blank
    (by simpa using hc.not_blank)
  have hname : readName? (c :: rest) = none := by
    rw [readName?]
    · simp [hc.not_start]
    · rintro d tail rfl
      exact absurd rfl hc.not_at
  have hne : gap.text.isEmpty = false := rfl
  simp only [readHeader?, behind?_append, htake, hdrop, hne, hname, Bool.false_eq_true, if_false,
    Option.map_none]

theorem Skips.escapedClass (gap : Gap) (c : Char) (hc : IsFollower c) :
    Skips (classWord ++ (gap.text ++ [c])) := by
  change Skips ('c' :: (['l', 'a', 's', 's'] ++ (gap.text ++ [c])))
  apply Skips.cons
  · intro before rest
    have hnone := readHeader?_class gap c rest hc
    apply headerAt?_eq_none_of_readHeader?
    simpa [classWord] using hnone
  · apply Skips.of_ne
    intro hmem
    rcases List.mem_append.1 hmem with hword | hmem
    · revert hword
      decide
    · rcases List.mem_append.1 hmem with hgap | hlast
      · exact gap.not_mem 'c' (by decide) hgap
      · exact hc.not_word (by rw [← List.mem_singleton.1 hlast]; decide)

theorem NameText.isName (name : NameText) : isName name.text = true := by
  have hname := isName_of_checkIdentifier _ name.accepted
  rwa [String.toList_ofList] at hname

theorem NameText.ne_class (name : NameText) : name.text ≠ classWord := by
  intro heq
  have haccepted := name.accepted
  rw [heq] at haccepted
  revert haccepted
  decide

/-- A name is a word, with or without an at sign in front of it. -/
theorem NameText.exists_bare (name : NameText) :
    ∃ bare, (name.text = bare ∨ name.text = '@' :: bare) ∧
      Language.csharp.isBareForm bare = true ∧ ∀ c ∈ bare, isWordChar c = true := by
  obtain ⟨bare, hbare, hform⟩ := (isName_iff name.text).1 name.isName
  refine ⟨bare, hbare, hform, ?_⟩
  intro c hc
  have hmem : c ∈ name.text := by
    rcases hbare with heq | heq <;> simp [heq, hc]
  rcases name.wordy c hmem with rfl | hchar
  · exfalso
    obtain ⟨first, rest, rfl, hstart, hrest⟩ := (isBareForm_iff bare).1 hform
    rcases List.mem_cons.1 hc with rfl | hin
    · exact ne_at_of_isNameStart '@' hstart rfl
    · have hat := hrest '@' hin
      rw [not_isNameRest_at] at hat
      cases hat
  · exact hchar

/-- The name of a member is passed over together with the sign behind it. -/
theorem Skips.name (name : NameText) (gap : Gap) (c : Char) (hc : IsFollower c) :
    Skips (name.text ++ (gap.text ++ [c])) := by
  obtain ⟨bare, hbare, -, hword⟩ := name.exists_bare
  have hlast : Skips [c] := Skips.of_ne _ (by
    intro hmem
    exact hc.not_word (by rw [← List.mem_singleton.1 hmem]; decide))
  rcases hbare with heq | heq
  · have hskip := (Skips.word bare gap hword (by rw [← heq]; exact name.ne_class)).append hlast
    rw [heq]
    simpa using hskip
  · have hat : Skips ['@'] := Skips.of_ne _ (by decide)
    rw [heq]
    by_cases hclass : bare = classWord
    · rw [hclass]
      exact hat.append (Skips.escapedClass gap c hc)
    · have hskip := hat.append ((Skips.word bare gap hword hclass).append hlast)
      simpa using hskip

theorem isWordChar_of_mem_modifier : ∀ word ∈ modifiers, ∀ c ∈ word, isWordChar c = true := by
  decide +kernel

theorem classWord_not_mem_modifiers : classWord ∉ modifiers := by
  decide +kernel

theorem Skips.front (front : Front) : Skips front.text := by
  apply Skips.append
  · apply Skips.flatMap
    rintro ⟨item, gap⟩ -
    have hopen : Skips ['['] := Skips.of_ne _ (by decide)
    have htext := Skips.headerless item.text ']' item.headerless (by decide)
    simpa using hopen.append (htext.append (Skips.gap gap))
  · apply Skips.flatMap
    rintro ⟨⟨word, hword⟩, gap⟩ -
    apply Skips.word word gap (isWordChar_of_mem_modifier word hword)
    rintro rfl
    exact classWord_not_mem_modifiers hword

theorem Skips.type (type : TypeWord) (gap : Gap) : Skips (type.text ++ gap.text) := by
  apply Skips.word type.text gap type.wordy
  intro heq
  apply type.not_declaration
  rw [heq]
  decide +kernel

theorem Skips.initializer (initializer : Initializer) : Skips (initializer.gap.text ++
    (initializer.value.text ++ [';'])) :=
  (Skips.gap _).append (Skips.headerless _ ';' initializer.value.headerless (by decide))

theorem isFollower_of_mem (c : Char) (h : c ∈ ['\x7b', '=', ';', '(']) : IsFollower c := by
  simp only [List.mem_cons, List.not_mem_nil, or_false] at h
  rcases h with rfl | rfl | rfl | rfl <;> exact ⟨by decide, by decide, by decide, by decide⟩

/-- No header stands in a member: its name is taken together with the first sign behind it, whatever
follows. -/
theorem Skips.member (member : MemberDecl) : Skips member.text := by
  obtain ⟨front, type, typeGap, name, nameGap, rest⟩ := member
  have hstart : Skips (front.text ++ (type.text ++ typeGap.text)) :=
    (Skips.front front).append (Skips.type type typeGap)
  have hname := fun c hc => Skips.name name nameGap c (isFollower_of_mem c hc)
  have hblock : ∀ block : BlockText, Skips (block.text ++ ['\x7d']) :=
    fun block => Skips.headerless _ '\x7d' block.headerless (by decide)
  have hrest : ∀ c tail, c ∈ ['\x7b', '=', ';', '('] → Skips tail →
      Skips (front.text ++ (type.text ++ (typeGap.text ++ (name.text ++
        (nameGap.text ++ c :: tail))))) := by
    intro c tail hc htail
    have hskip := hstart.append ((hname c hc).append htail)
    simpa using hskip
  cases rest with
  | autoProperty block => exact hrest '\x7b' _ (by decide) (hblock block)
  | initializedProperty block gap initializer =>
      apply hrest '\x7b' _ (by decide)
      have hequals : Skips ['='] := Skips.of_ne _ (by decide)
      have hskip := (hblock block).append ((Skips.gap gap).append
        (hequals.append (Skips.initializer initializer)))
      simpa [Initializer.text] using hskip
  | arrowProperty value =>
      apply hrest '=' _ (by decide)
      have harrow : Skips ['>'] := Skips.of_ne _ (by decide)
      exact harrow.append (Skips.headerless _ ';' value.headerless (by decide))
  | field => exact hrest ';' _ (by decide) Skips.nil
  | initializedField initializer =>
      have hskip := hrest '=' _ (by decide) (Skips.initializer initializer)
      simpa [MemberDecl.text, MemberRest.text, Initializer.text] using hskip
  | method parameters gap block =>
      apply hrest '(' _ (by decide)
      have hopen : Skips ['\x7b'] := Skips.of_ne _ (by decide)
      have hskip := (Skips.headerless _ ')' parameters.headerless (by decide)).append
        ((Skips.gap gap).append (hopen.append (hblock block)))
      simpa using hskip

/-- Behind this text, given in reverse, a word `class` would start a header that declares a
class. -/
structure IsReady (before : List Char) : Prop where
  outside : startsOutsideWord before = true
  declares : declaresClass before = true

/-- A text, given in reverse, that ends neither with a blank nor with a sign that makes the word
`class` a constraint. -/
def IsSettled (before : List Char) : Prop :=
  ∀ c ∈ before.head?, isBlank c = false ∧ c ≠ ':' ∧ c ≠ ','

theorem isBlank_of_isPlainBlank (c : Char) (h : isPlainBlank c = true) : isBlank c = true := by
  simp only [isPlainBlank, Bool.or_eq_true, beq_iff_eq] at h
  rcases h with (((rfl | rfl) | rfl) | rfl) | rfl <;> decide

/-- What is left when plain blanks are dropped from blanks in front of a settled text. -/
theorem head?_dropWhile_isPlainBlank (blanks far : List Char)
    (hblanks : ∀ c ∈ blanks, isBlank c = true) (hfar : IsSettled far) :
    ∀ c ∈ ((blanks ++ far).dropWhile isPlainBlank).head?, c ≠ ':' ∧ c ≠ ',' := by
  induction blanks with
  | nil =>
      cases far with
      | nil => simp
      | cons d far =>
          obtain ⟨hblank, hd⟩ := hfar d (by simp)
          have hplain : isPlainBlank d = false := by
            by_contra hplain
            rw [isBlank_of_isPlainBlank d (by simpa using hplain)] at hblank
            cases hblank
          simpa [hplain] using hd
  | cons b blanks ih =>
      by_cases hplain : isPlainBlank b = true
      · rw [List.cons_append, List.dropWhile_cons_of_pos hplain]
        exact ih fun c hc => hblanks c (by simp [hc])
      · have hb := hblanks b (by simp)
        rw [List.cons_append, List.dropWhile_cons_of_neg hplain]
        rintro c hc
        obtain rfl : b = c := by simpa using hc
        exact ⟨ne_of_isBlank b _ hb (by decide), ne_of_isBlank b _ hb (by decide)⟩

/-- Behind blanks a class can be declared, if a settled text stands before them or nothing. -/
theorem isReady_of_blanks (blanks far : List Char) (hblanks : ∀ c ∈ blanks, isBlank c = true)
    (hfar : IsSettled far) (h : blanks ≠ [] ∨ far = []) : IsReady (blanks ++ far) := by
  have hdrop := head?_dropWhile_isPlainBlank blanks far hblanks hfar
  cases blanks with
  | nil =>
      obtain rfl : far = [] := by simpa using h
      exact ⟨rfl, rfl⟩
  | cons b blanks =>
      have hb := hblanks b (by simp)
      refine ⟨?_, ?_⟩
      · simp [startsOutsideWord, not_isWordChar_of_isBlank b hb]
      · have hat : b ≠ '@' := ne_of_isBlank b _ hb (by decide)
        rw [declaresClass_eq]
        simp only [List.cons_append, List.head?_cons, Bool.and_eq_true, bne_iff_ne, ne_eq,
          Option.some.injEq]
        exact ⟨⟨hat, fun hc => (hdrop ':' hc).1 rfl⟩, fun hc => (hdrop ',' hc).2 rfl⟩

theorem IsReady.gap (gap : Gap) (far : List Char) (hfar : IsSettled far) :
    IsReady (gap.text.reverse ++ far) := by
  apply isReady_of_blanks _ _ _ hfar (Or.inl (by simp [Gap.text]))
  intro c hc
  exact gap.blank c (List.mem_reverse.1 hc)

/-- Tokens, each with a gap behind it, leave a text ready that was ready before. -/
theorem IsReady.flatMap {α : Type} (items : List α) (token : α → List Char) (gap : α → Gap)
    (htoken : ∀ item ∈ items, ∀ far, IsSettled ((token item).reverse ++ far))
    (before : List Char) (hbefore : IsReady before) :
    IsReady ((items.flatMap fun item => token item ++ (gap item).text).reverse ++ before) := by
  induction items generalizing before with
  | nil => exact hbefore
  | cons item items ih =>
      have hready := IsReady.gap (gap item) _ (htoken item (by simp) before)
      have hrest := ih (fun other hother => htoken other (by simp [hother])) _ hready
      simpa using hrest

theorem isSettled_modifier (word : List Char) (h : word ∈ modifiers) (far : List Char) :
    IsSettled (word.reverse ++ far) := by
  have hne : [] ∉ modifiers := by decide +kernel
  have hlast : ∀ word ∈ modifiers, ∀ c ∈ word, isBlank c = false ∧ c ≠ ':' ∧ c ≠ ',' := by
    decide +kernel
  have hreverse : word.reverse ≠ [] := by
    intro hnil
    rw [List.reverse_eq_nil_iff] at hnil
    exact hne (hnil ▸ h)
  intro c hc
  rw [List.head?_append_of_ne_nil _ hreverse] at hc
  exact hlast word h c (List.mem_reverse.1 (List.mem_of_mem_head? hc))

/-- The front of a declaration leaves a text ready. -/
theorem IsReady.front (front : Front) (before : List Char) (h : IsReady before) :
    IsReady (front.text.reverse ++ before) := by
  have hattributes := IsReady.flatMap front.attributes (fun item => '[' :: (item.1.text ++ [']']))
    (fun item => item.2) (by
      rintro item - far
      simp [IsSettled]
      decide) before h
  have hmodifiers := IsReady.flatMap front.modifiers (fun item => item.1.1) (fun item => item.2)
    (fun item _ far => isSettled_modifier item.1.1 item.1.2 far) _ hattributes
  simpa [Front.text, attributesText, modifiersText] using hmodifiers

/-- The header that the head of a class is read as. -/
def ClassHead.header (head : ClassHead) (offset : Nat) (rest : List Char) : Header :=
  { name := head.name.text
    keywordOffset := offset + byteLength head.front.text
    endOffset := offset + byteLength head.front.text +
      byteLength (classWord ++ head.classGap.text ++ head.name.text)
    rest := head.nameGap.text ++ '\x7b' :: rest }

/-- The head of a class is read as a header that declares the class. -/
theorem headers_head (head : ClassHead) (before : List Char) (offset : Nat) (rest : List Char)
    (h : IsReady before) :
    headers before offset (head.text ++ '\x7b' :: rest) =
      head.header offset rest ::
        headers ('\x7b' :: (head.text.reverse ++ before)) (offset + byteLength head.text + 1)
          rest := by
  obtain ⟨front, classGap, name, nameGap⟩ := head
  have hready := IsReady.front front before h
  let found : HeaderMatch :=
    { gap := classGap.text, name := name.text, rest := nameGap.text ++ '\x7b' :: rest }
  have hform : found.WellFormed := by
    refine ⟨by simp [found, Gap.text], classGap.blank, name.isName, ?_⟩
    intro c hc
    obtain rfl : nameGap.first = c := by simpa [found, Gap.text] using hc
    exact not_isNameRest_of_isBlank _ (nameGap.blank _ (by simp))
  have hat : headerAt? (front.text.reverse ++ before) (found.text ++ found.rest) = some found := by
    rw [headerAt?, if_pos hready.outside]
    exact (readHeader?_eq_some_iff _ found).2 ⟨rfl, hform⟩
  have htext : ClassHead.text ⟨front, classGap, name, nameGap⟩ ++ '\x7b' :: rest =
      front.text ++ (found.text ++ found.rest) := by
    simp [ClassHead.text, HeaderMatch.text, found]
  have hgap : Skips (nameGap.text ++ ['\x7b']) :=
    (Skips.gap nameGap).append (Skips.of_ne _ (by decide))
  have hbehind := hgap (found.text.reverse ++ (front.text.reverse ++ before))
    (offset + byteLength front.text + byteLength found.text) rest
  rw [List.append_assoc, List.singleton_append] at hbehind
  rw [htext, Skips.front front, headers_of_some _ _ _ found hat, if_pos hready.declares]
  change _ :: headers _ _ (nameGap.text ++ '\x7b' :: rest) = _
  rw [hbehind]
  congr 1
  congr 1
  · simp [ClassHead.text, HeaderMatch.text, found]
  · simp only [ClassHead.text, HeaderMatch.text, found, byteLength_append, byteLength,
      utf8Size_open]
    omega

end RecordText.Source
