import RecordText.Proofs.OverrideReading

/-!
# What the segments of a member declare

The text of a member, with the gap in front of it, starts and ends at the top
level of the body. Its segments declare what an outline shows of the member,
whatever follows. The head of a nested class and the class's body are one
segment and a block, and declare nothing.
-/

namespace RecordText.Source

open RecordText.Text

/-- A text at the top level of a body ends its last segment, and its segments declare something
whatever follows. -/
structure Declares (text : List Char) (declared : List Declared) : Prop where
  balanced : depthAfter 0 text = some 0
  segments : ∀ offset rest,
    (walk 0 [] offset (text ++ rest)).segments.filterMap Segment.declared? =
      declared ++
        (walk 0 [] (offset + byteLength text) rest).segments.filterMap Segment.declared?

theorem Declares.append {front back : List Char} {first later : List Declared}
    (hfront : Declares front first) (hback : Declares back later) :
    Declares (front ++ back) (first ++ later) := by
  constructor
  · rw [depthAfter_append, hfront.balanced]
    exact hback.balanced
  · intro offset rest
    rw [List.append_assoc, hfront.segments, hback.segments, List.append_assoc, byteLength_append,
      Nat.add_assoc]

theorem filterMap_cons_toList {α β : Type} (f : α → Option β) (item : α) (items : List α) :
    (item :: items).filterMap f = (f item).toList ++ items.filterMap f := by
  cases h : f item with
  | none =>
      rw [List.filterMap_cons_none h]
      rfl
  | some value =>
      rw [List.filterMap_cons_some h]
      rfl

/-- Text up to a semicolon declares what its segment declares. -/
theorem Declares.statement (piece : List Char) (h : ∀ c ∈ piece, isStop c = false) :
    Declares (piece ++ [';'])
      (Segment.declared? { text := piece, terminator := .semicolon }).toList := by
  constructor
  · rw [depthAfter_append, depthAfter_of_not_isStop 0 piece h]
    rfl
  · intro offset rest
    rw [List.append_assoc, walk_zero_piece [] offset piece _ h, List.singleton_append,
      walk_zero_semicolon, Body.cons_segments, filterMap_cons_toList]
    simp [byteLength, Nat.add_assoc]

/-- Text up to a block declares what its segment declares. -/
theorem Declares.block (piece inside : List Char) (h : ∀ c ∈ piece, isStop c = false)
    (hinside : depthAfter 0 inside = some 0) :
    Declares (piece ++ '\x7b' :: (inside ++ ['\x7d']))
      (Segment.declared? { text := piece, terminator := .brace }).toList := by
  constructor
  · have hinner := depthAfter_add 0 0 1 inside hinside
    rw [Nat.zero_add] at hinner
    rw [depthAfter_append, depthAfter_of_not_isStop 0 piece h, Option.bind_some, depthAfter_open,
      depthAfter_append, hinner]
    rfl
  · intro offset rest
    have hsplit : piece ++ '\x7b' :: (inside ++ ['\x7d']) ++ rest =
        piece ++ '\x7b' :: (inside ++ '\x7d' :: rest) := by
      simp
    have hlength : offset + byteLength (piece ++ '\x7b' :: (inside ++ ['\x7d'])) =
        offset + byteLength piece + 1 + byteLength inside + 1 := by
      simp only [byteLength_append, byteLength, utf8Size_open, utf8Size_close]
      omega
    rw [hsplit, hlength, walk_zero_piece [] offset piece _ h, walk_zero_open, Body.cons_segments,
      filterMap_cons_toList, walk_inner_append 0 0 _ inside _ hinside, walk_succ_close]
    simp

/-- A segment that is no override is read as a property. -/
theorem declared?_of_not_override (segment : Segment) (declaration : List Char)
    (hdeclaration : trimEnd (skipAttributes segment.text) = declaration)
    (hne : declaration ≠ []) (hoverride : overridesToString declaration = false) :
    segment.declared? = (readProperty? declaration).bind fun parts =>
      if parts.isField segment.terminator then
        some (.property
          { name := String.ofList parts.name, declaredType := String.ofList parts.type })
      else none := by
  have hempty : declaration.isEmpty = false := by simpa using hne
  unfold Segment.declared?
  dsimp only
  rw [hdeclaration, hempty, hoverride, if_neg Bool.false_ne_true, if_neg Bool.false_ne_true]
  cases readProperty? declaration <;> rfl

/-- What a segment declares that has the form of a property with one word as its type. -/
def declaredProperty? (front : Front) (word : List Char) (name : NameText) : Option Declared :=
  if !nonTypeWords.contains word && !front.has "static".toList then
    some (.property
      { name := String.ofList name.text, declaredType := String.ofList word })
  else none

/-- A property stands for a field if its form fits what ends the segment, unless its type starts
another kind of declaration. -/
theorem isField_eq (front : Front) (word : List Char) (name : NameText) (arrow : Bool)
    (terminator : Terminator) (h : IsWord word) :
    PropertyParts.isField
        { modifiers := modifierWords front.modifiers, type := word, name := name.text, arrow }
        terminator =
      (arrow == decide (terminator = .semicolon) &&
        (!nonTypeWords.contains word && !front.has "static".toList)) := by
  unfold PropertyParts.isField
  rw [hasWord_of_isWord nonTypeWords _ isWord_of_mem_nonTypeWords h, Bool.and_assoc]
  cases terminator <;> cases arrow <;> rfl

/-- The start of a segment: a gap, attributes and modifiers, a word and a name with its gap. -/
def leadingText (lead : Gap) (front : Front) (word : List Char) (gap : Gap) (name : NameText)
    (nameGap : Gap) : List Char :=
  lead.text ++ (front.text ++ (word ++ (gap.text ++ (name.text ++ nameGap.text))))

section LeadingText

variable (lead : Gap) (front : Front) (word : List Char) (gap : Gap) (name : NameText)
  (nameGap : Gap)

/-- What is left of a segment without its attributes. -/
theorem skipAttributes_leadingText (hword : IsWord word) (rest : List Char) :
    skipAttributes (leadingText lead front word gap name nameGap ++ rest) =
      signature front.modifiers word gap name ++ (nameGap.text ++ rest) := by
  have hskip := skipAttributes_signature front.modifiers word gap name hword lead.text lead.blank
    front.attributes (nameGap.text ++ rest)
  simpa [leadingText, Front.text, signature] using hskip

theorem not_isStop_of_isSignatureChar (c : Char) (h : isSignatureChar c = true) :
    isStop c = false := by
  by_contra hstop
  simp only [isStop, Bool.not_eq_false, Bool.or_eq_true, beq_iff_eq] at hstop
  rcases hstop with (rfl | rfl) | rfl <;> revert h <;> decide

theorem FreeText.not_isStop {excluded : List Char} (free : FreeText excluded)
    (hexcluded : ['\x7b', '\x7d', ';'] ⊆ excluded) (c : Char) (hc : c ∈ free.text) :
    isStop c = false := by
  have hfree := free.free c hc
  by_contra hstop
  simp only [isStop, Bool.not_eq_false, Bool.or_eq_true, beq_iff_eq] at hstop
  exact hfree (hexcluded (by simpa [or_assoc] using hstop))

theorem not_isStop_leadingText (hword : IsWord word) :
    ∀ c ∈ leadingText lead front word gap name nameGap, isStop c = false := by
  intro c hc
  have htext : leadingText lead front word gap name nameGap = lead.text ++
      (attributesText front.attributes ++ (signature front.modifiers word gap name ++
        nameGap.text)) := by
    simp [leadingText, Front.text, signature]
  rw [htext] at hc
  simp only [List.mem_append] at hc
  rcases hc with hlead | hattributes | hsignature | hgap
  · exact not_isStop_of_isBlank c (lead.blank c hlead)
  · simp only [attributesText, List.mem_flatMap, List.mem_cons, List.mem_append] at hattributes
    obtain ⟨item, -, rfl | hinside | rfl | hblank⟩ := hattributes
    · decide
    · exact item.1.not_isStop (by decide) c hinside
    · decide
    · exact not_isStop_of_isBlank c (item.2.blank c hblank)
  · exact not_isStop_of_isSignatureChar c
      (isSignatureChar_of_mem _ word gap name hword c hsignature)
  · exact not_isStop_of_isBlank c (nameGap.blank c hgap)

theorem signature_append_ne_nil (items : List (Modifier × Gap)) (rest : List Char) :
    signature items word gap name ++ rest ≠ [] := by
  simp [signature, name.ne_nil]

/-- A segment that ends behind a name declares a property if a block follows. -/
theorem declared?_leadingText (hword : IsWord word) (terminator : Terminator) :
    Segment.declared? { text := leadingText lead front word gap name nameGap, terminator } =
      if terminator = .brace then declaredProperty? front word name else none := by
  have hskip := skipAttributes_leadingText lead front word gap name nameGap hword []
  rw [List.append_nil, List.append_nil] at hskip
  have htrim : trimEnd (skipAttributes (leadingText lead front word gap name nameGap)) =
      signature front.modifiers word gap name := by
    rw [hskip]
    exact trimEnd_append_blanks _ _ nameGap.blank (getLast?_signature _ word gap name)
  have hread := readProperty?_signature front.modifiers word gap name hword [] [] (by simp)
    (by simp)
  rw [List.append_nil, List.append_nil] at hread
  have hne := signature_append_ne_nil word gap name front.modifiers []
  rw [List.append_nil] at hne
  rw [declared?_of_not_override _ _ htrim hne, hread]
  · simp only [arrow?, Option.map_some, Option.bind_some, isField_eq front word name _ _ hword]
    cases terminator <;> rfl
  · apply overridesToString_of_no_paren
    have hparen := not_mem_signature_append front.modifiers word gap name hword [] (by simp) '('
      (by decide)
    rwa [List.append_nil] at hparen

/-- A segment with an equals sign behind its signature declares a property if the sign starts an
arrow. -/
theorem declared?_of_equals (hword : IsWord word) (segment : Segment) (blanks behind : List Char)
    (hblanks : ∀ c ∈ blanks, isBlank c = true)
    (hskip : skipAttributes segment.text =
      signature front.modifiers word gap name ++ (blanks ++ '=' :: behind)) :
    segment.declared? = (arrow? ('=' :: trimEnd behind)).bind fun arrow =>
      if arrow = decide (segment.terminator = .semicolon) then declaredProperty? front word name
      else none := by
  have htrim : trimEnd (skipAttributes segment.text) =
      signature front.modifiers word gap name ++ (blanks ++ '=' :: trimEnd behind) := by
    rw [hskip, ← List.append_assoc, trimEnd_append_of_not_isBlank _ _ '=' (by decide),
      List.append_assoc]
  have hne := signature_append_ne_nil word gap name front.modifiers
    (blanks ++ '=' :: trimEnd behind)
  rw [declared?_of_not_override _ _ htrim hne, readProperty?_signature front.modifiers word gap name
    hword blanks _ hblanks (by simp)]
  · cases arrow? ('=' :: trimEnd behind) with
    | none => rfl
    | some arrow =>
        simp only [Option.map_some, Option.bind_some, isField_eq front word name _ _ hword]
        cases segment.terminator <;> cases arrow <;> rfl
  · rw [← List.append_assoc]
    apply overridesToString_of_equals
    exact not_mem_signature_append _ word gap name hword blanks hblanks '(' (by decide)

theorem declared?_equals (hword : IsWord word) (terminator : Terminator) (behind : List Char) :
    Segment.declared?
        { text := leadingText lead front word gap name nameGap ++ '=' :: behind, terminator } =
      (arrow? ('=' :: trimEnd behind)).bind fun arrow =>
        if arrow = decide (terminator = .semicolon) then declaredProperty? front word name
        else none :=
  declared?_of_equals front word gap name hword _ nameGap.text behind nameGap.blank
    (skipAttributes_leadingText lead front word gap name nameGap hword ('=' :: behind))

/-- A segment with parameters behind the name declares an override or nothing. -/
theorem declared?_method (hword : IsWord word) (hmodifier : word ∉ modifiers)
    (terminator : Terminator) (parameters : ParameterText) (behind : Gap) :
    Segment.declared?
        { text := leadingText lead front word gap name nameGap ++
            '(' :: (parameters.text ++ ')' :: behind.text)
          terminator } =
      if front.has "override".toList &&
          (Language.csharp.splitEscape name.text).2 == "ToString".toList &&
          allBlank parameters.text then some .toStringOverride
      else none := by
  have hparameters : ')' ∉ parameters.text := fun hmem => parameters.free ')' hmem (by decide)
  have htrim : trimEnd (skipAttributes (leadingText lead front word gap name nameGap ++
      '(' :: (parameters.text ++ ')' :: behind.text))) =
        signature front.modifiers word gap name ++
          (nameGap.text ++ '(' :: (parameters.text ++ [')'])) := by
    have hsplit : signature front.modifiers word gap name ++
          (nameGap.text ++ '(' :: (parameters.text ++ ')' :: behind.text)) =
        (signature front.modifiers word gap name ++
          (nameGap.text ++ '(' :: (parameters.text ++ [')']))) ++ behind.text := by
      simp
    rw [skipAttributes_leadingText lead front word gap name nameGap hword, hsplit]
    apply trimEnd_append_blanks _ _ behind.blank
    intro c hc
    have hlast : signature front.modifiers word gap name ++
          (nameGap.text ++ '(' :: (parameters.text ++ [')'])) =
        (signature front.modifiers word gap name ++ (nameGap.text ++ '(' :: parameters.text)) ++
          [')'] := by
      simp
    rw [hlast, List.getLast?_concat] at hc
    obtain rfl : ')' = c := by simpa using hc
    decide
  have hoverrides := overridesToString_method front.modifiers word gap name hword hmodifier
    nameGap.text parameters.text nameGap.blank hparameters
  have hread := readProperty?_paren front.modifiers word gap name hword hmodifier nameGap.text
    (parameters.text ++ [')']) nameGap.blank
  have hempty : (signature front.modifiers word gap name ++
      (nameGap.text ++ '(' :: (parameters.text ++ [')']))).isEmpty = false := by
    simp
  unfold Segment.declared?
  dsimp only
  rw [htrim, hempty, hoverrides, hread, if_neg Bool.false_ne_true]
  rfl

end LeadingText

/-- An equals sign without an arrow makes no property. -/
theorem arrow?_trimEnd (behind : List Char) (h : ∀ c ∈ behind.head?, c ≠ '>') :
    arrow? ('=' :: trimEnd behind) = none := by
  have hstart : trimEnd behind <+: behind := by
    rw [trimEnd, ← List.reverse_suffix, List.reverse_reverse]
    exact List.dropWhile_suffix _
  cases htrim : trimEnd behind with
  | nil => rfl
  | cons c rest =>
      obtain ⟨more, hmore⟩ := hstart
      have hc : c ≠ '>' := h c (by rw [← hmore, htrim]; simp)
      unfold arrow?
      split
      · rename_i heq
        cases heq
      · rename_i heq
        simp only [List.cons.injEq, true_and] at heq
        exact absurd heq.1 hc
      · rfl

theorem Initializer.arrow?_eq_none (initializer : Initializer) :
    arrow? ('=' :: trimEnd (initializer.gap.text ++ initializer.value.text)) = none := by
  apply arrow?_trimEnd
  intro c hc
  obtain rfl : initializer.gap.first = c := by simpa [Gap.text] using hc
  exact ne_of_isBlank _ _ (initializer.gap.blank _ (by simp)) (by decide)

/-- The initial value of a property declares nothing. -/
theorem Initializer.declared?_eq_none (initializer : Initializer) (lead : Gap)
    (terminator : Terminator) :
    Segment.declared? { text := lead.text ++ initializer.text, terminator } = none := by
  have htrim : trimEnd (skipAttributes (lead.text ++ initializer.text)) =
      '=' :: trimEnd (initializer.gap.text ++ initializer.value.text) := by
    rw [Initializer.text, skipAttributes_append_blanks lead.text '=' _ lead.blank (by decide)
      (by decide)]
    exact trimEnd_append_of_not_isBlank [] _ '=' (by decide)
  have hoverride := overridesToString_of_equals []
    (trimEnd (initializer.gap.text ++ initializer.value.text)) (by simp)
  rw [List.nil_append] at hoverride
  rw [declared?_of_not_override _ _ htrim (by simp) hoverride, readProperty?_eq,
    List.dropWhile_cons_of_neg (by decide), initializer.arrow?_eq_none]
  rfl

theorem declaredProperty?_type (front : Front) (type : TypeWord) (name : NameText) :
    declaredProperty? front type.text name =
      if front.has "static".toList then none
      else some (.property
        { name := String.ofList name.text, declaredType := String.ofList type.text }) := by
  have htype : nonTypeWords.contains type.text = false := by simpa using type.not_declaration
  rw [declaredProperty?, htype]
  cases front.has "static".toList <;> rfl

theorem arrow?_arrow (value : List Char) : arrow? ('=' :: trimEnd ('>' :: value)) = some true := by
  have htrim : trimEnd ('>' :: value) = '>' :: trimEnd value :=
    trimEnd_append_of_not_isBlank [] value '>' (by decide)
  rw [htrim]
  rfl

theorem BlockText.depthAfter_eq (block : BlockText) : depthAfter 0 block.text = some 0 := by
  simpa [isBalanced] using block.balanced

theorem Initializer.not_isStop (initializer : Initializer) (c : Char)
    (hc : c ∈ initializer.text) : isStop c = false := by
  simp only [Initializer.text, List.mem_append, List.mem_cons] at hc
  rcases hc with rfl | hgap | hvalue
  · decide
  · exact not_isStop_of_isBlank c (initializer.gap.blank c hgap)
  · exact initializer.value.not_isStop (by decide) c hvalue

/-- The segments of a member declare what an outline shows of it. -/
theorem Declares.member (lead : Gap) (member : MemberDecl) :
    Declares (lead.text ++ member.text) member.declared?.toList := by
  obtain ⟨front, type, typeGap, name, nameGap, rest⟩ := member
  have htext : lead.text ++ MemberDecl.text ⟨front, type, typeGap, name, nameGap, rest⟩ =
      leadingText lead front type.text typeGap name nameGap ++ rest.text := by
    simp [MemberDecl.text, leadingText]
  have hword := type.isWord
  have hstop := not_isStop_leadingText lead front type.text typeGap name nameGap hword
  have hblank : ∀ gap : Gap, ∀ c ∈ gap.text, isStop c = false :=
    fun gap c hc => not_isStop_of_isBlank c (gap.blank c hc)
  rw [htext]
  cases rest with
  | autoProperty block =>
      have hblock := Declares.block _ block.text hstop block.depthAfter_eq
      rw [declared?_leadingText _ _ _ _ _ _ hword, if_pos rfl, declaredProperty?_type] at hblock
      exact hblock
  | initializedProperty block gap initializer =>
      have hblock := Declares.block _ block.text hstop block.depthAfter_eq
      rw [declared?_leadingText _ _ _ _ _ _ hword, if_pos rfl, declaredProperty?_type] at hblock
      have hvalue := Declares.statement (gap.text ++ initializer.text)
        (List.forall_mem_append.2 ⟨hblank gap, initializer.not_isStop⟩)
      rw [initializer.declared?_eq_none] at hvalue
      have hboth := hblock.append hvalue
      rw [Option.toList_none, List.append_nil] at hboth
      have hsplit : MemberRest.text (.initializedProperty block gap initializer) =
          '\x7b' :: (block.text ++ ['\x7d']) ++ (gap.text ++ initializer.text ++ [';']) := by
        simp [MemberRest.text]
      rw [hsplit, ← List.append_assoc]
      exact hboth
  | arrowProperty value =>
      have hvalue : ∀ c ∈ '=' :: '>' :: value.text, isStop c = false := by
        intro c hc
        simp only [List.mem_cons] at hc
        rcases hc with rfl | rfl | hin
        · decide
        · decide
        · exact value.not_isStop (by decide) c hin
      have hstatement := Declares.statement _ (List.forall_mem_append.2 ⟨hstop, hvalue⟩)
      rw [declared?_equals _ _ _ _ _ _ hword, arrow?_arrow, Option.bind_some, if_pos (by decide),
        declaredProperty?_type, List.append_assoc] at hstatement
      exact hstatement
  | field =>
      have hstatement := Declares.statement _ hstop
      rw [declared?_leadingText _ _ _ _ _ _ hword, if_neg (by decide)] at hstatement
      exact hstatement
  | initializedField initializer =>
      have hstatement := Declares.statement _ (List.forall_mem_append.2
        ⟨hstop, initializer.not_isStop⟩)
      rw [Initializer.text, declared?_equals _ _ _ _ _ _ hword, initializer.arrow?_eq_none,
        List.append_assoc] at hstatement
      exact hstatement
  | method parameters gap block =>
      have hparameters : ∀ c ∈ '(' :: (parameters.text ++ ')' :: gap.text), isStop c = false := by
        intro c hc
        simp only [List.mem_cons, List.mem_append] at hc
        rcases hc with rfl | hin | rfl | hin
        · decide
        · exact parameters.not_isStop (by decide) c hin
        · decide
        · exact hblank gap c hin
      have hblock := Declares.block _ block.text (List.forall_mem_append.2
        ⟨hstop, hparameters⟩) block.depthAfter_eq
      rw [declared?_method _ _ _ _ _ _ hword type.not_modifier] at hblock
      have hsplit : MemberRest.text (.method parameters gap block) =
          '(' :: (parameters.text ++ ')' :: gap.text) ++ '\x7b' :: (block.text ++ ['\x7d']) := by
        simp [MemberRest.text]
      rw [hsplit, ← List.append_assoc]
      exact hblock

/-- A nested class declares nothing at the level of the class around it. -/
theorem Declares.nested (lead : Gap) (head : ClassHead) (inside : List Char)
    (h : depthAfter 0 inside = some 0) :
    Declares (lead.text ++ (head.text ++ '\x7b' :: (inside ++ ['\x7d']))) [] := by
  have htext : lead.text ++ (head.text ++ '\x7b' :: (inside ++ ['\x7d'])) =
      leadingText lead head.front classWord head.classGap head.name head.nameGap ++
        '\x7b' :: (inside ++ ['\x7d']) := by
    simp [ClassHead.text, leadingText]
  have hnone : declaredProperty? head.front classWord head.name = none := by
    have hclass : nonTypeWords.contains classWord = true := by decide +kernel
    rw [declaredProperty?, hclass]
    rfl
  have hblock := Declares.block _ inside (not_isStop_leadingText lead head.front classWord
    head.classGap head.name head.nameGap isWord_classWord) h
  rw [declared?_leadingText _ _ _ _ _ _ isWord_classWord, if_pos rfl, hnone] at hblock
  rw [htext]
  exact hblock

end RecordText.Source
