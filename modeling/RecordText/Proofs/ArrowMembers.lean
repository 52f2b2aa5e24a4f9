import RecordText.Proofs.MaskedOffsets
import RecordText.Proofs.TreeOutline

/-!
# Properties with an arrow

A property may be written with an arrow and an expression that a semicolon ends.
The walk through a class body looks for this semicolon at the top level of the
body, but an opening brace ends a segment as well. A property with an arrow is
therefore found exactly if its expression has no block. Otherwise the part up to
the first block is passed over, and what stands behind the block is read as if
members started there.

## Main statements

* `ArrowMember.declares_plain`: without a block the member declares its property.
* `ArrowMember.declares_block`: with a block it declares what is read behind the block.
* `properties_arrow_member`: what this means for the properties of a class.
-/

namespace RecordText.Source

open RecordText.Text

/-- Whether a semicolon stands outside the braces of a text that starts at some depth. -/
def hasOuterSemicolon (depth : Nat) : List Char → Bool
  | [] => false
  | c :: rest =>
    if c = '\x7b' then hasOuterSemicolon (depth + 1) rest
    else if c = '\x7d' then hasOuterSemicolon (depth - 1) rest
    else (depth == 0 && c == ';') || hasOuterSemicolon depth rest

/-- A property with an arrow as it stands in masked text. Its expression is any text with matching
braces and without a semicolon outside of them. -/
structure ArrowMember where
  lead : Margin
  modifiers : List (Modifier × Gap)
  type : TypeWord
  typeGap : Gap
  name : NameText
  nameGap : Margin
  value : List Char
  balanced : isBalanced value = true
  one_statement : hasOuterSemicolon 0 value = false

/-- The text of a property with an arrow. -/
def ArrowMember.text (member : ArrowMember) : List Char :=
  member.lead.text ++ (signature member.modifiers member.type.text member.typeGap member.name ++
    (member.nameGap.text ++ '=' :: '>' :: (member.value ++ [';'])))

/-- The field that a property with an arrow stands for. -/
def ArrowMember.field (member : ArrowMember) : Field :=
  { name := String.ofList member.name.text, declaredType := String.ofList member.type.text }

/-- What the segments of a text at the top level of a body declare. -/
def readMembers (text : List Char) : List Declared :=
  (walk 0 [] 0 text).segments.filterMap Segment.declared?

/-- The properties that are read from a text at the top level of a body. -/
def readProperties (text : List Char) : List Field :=
  properties (readMembers text)

/-- Whether a text consists of whole members: its braces match, and nothing stands behind the last
member. -/
structure IsComplete (text : List Char) : Prop where
  balanced : depthAfter 0 text = some 0
  finished : unfinished text = []

theorem properties_append (first later : List Declared) :
    properties (first ++ later) = properties first ++ properties later := by
  rw [properties, List.filterMap_append]
  rfl

theorem readMembers_eq (offset : Nat) (text : List Char) :
    (walk 0 [] offset text).segments.filterMap Segment.declared? = readMembers text := by
  have hshift := walk_shift 0 [] 0 offset text
  rw [Nat.zero_add] at hshift
  rw [hshift]
  rfl

/-- Whole members declare what is read from them. -/
theorem IsComplete.declares {text : List Char} (h : IsComplete text) :
    Declares text (readMembers text) := by
  refine ⟨h.balanced, ?_⟩
  intro offset rest
  have hsegment : segmentAfter 0 [] text = [] := by simpa [unfinished] using h.finished
  rw [walk_append 0 0 [] offset text rest h.balanced, hsegment, Body.prepend_segments,
    List.filterMap_append, readMembers_eq offset text]

/-- A text with matching braces is complete with a semicolon behind it. -/
theorem isComplete_semicolon (text : List Char) (h : depthAfter 0 text = some 0) :
    IsComplete (text ++ [';']) := by
  have hdepth : depthAfter 0 (text ++ [';']) = some 0 := by
    rw [depthAfter_append, h]
    rfl
  exact ⟨hdepth, by rw [unfinished, segmentAfter_stop 0 [] text ';' rfl hdepth]; rfl⟩

/-- A block that is open closes somewhere, if the braces of the text match in the end. -/
theorem exists_close_of_depthAfter_one (text : List Char) (h : depthAfter 1 text = some 0) :
    ∃ inside behind, text = inside ++ '\x7d' :: behind ∧ depthAfter 0 inside = some 0 ∧
      depthAfter 0 behind = some 0 := by
  cases hzero : depthAfter 0 text with
  | some depth =>
      rw [← Nat.zero_add 1, depthAfter_add 0 depth 1 text hzero] at h
      cases h
  | none =>
      obtain ⟨inside, behind, rfl, hinside⟩ := exists_close_of_depthAfter_eq_none 0 text hzero
      have hinner := depthAfter_add 0 0 1 inside hinside
      rw [Nat.zero_add] at hinner
      rw [depthAfter_append, hinner] at h
      exact ⟨inside, behind, rfl, hinside, by simpa using h⟩

/-- The first block of a text whose braces match. -/
theorem exists_firstBlock (text : List Char) (hbalanced : depthAfter 0 text = some 0)
    (hopen : '\x7b' ∈ text) :
    ∃ head inside tail, text = head ++ '\x7b' :: (inside ++ '\x7d' :: tail) ∧
      (∀ c ∈ head, c ≠ '\x7b' ∧ c ≠ '\x7d') ∧ depthAfter 0 inside = some 0 ∧
      depthAfter 0 tail = some 0 := by
  induction text with
  | nil => cases hopen
  | cons c rest ih =>
      rcases brace_cases c with rfl | rfl | hc
      · rw [depthAfter_open] at hbalanced
        obtain ⟨inside, tail, rfl, hinside, htail⟩ := exists_close_of_depthAfter_one rest hbalanced
        exact ⟨[], inside, tail, rfl, by simp, hinside, htail⟩
      · simp at hbalanced
      · rw [depthAfter_other 0 c rest hc] at hbalanced
        have hrest : '\x7b' ∈ rest := (List.mem_cons.1 hopen).resolve_left (Ne.symm hc.1)
        obtain ⟨head, inside, tail, rfl, hhead, hinside, htail⟩ := ih hbalanced hrest
        exact ⟨c :: head, inside, tail, rfl, List.forall_mem_cons.2 ⟨hc, hhead⟩, hinside, htail⟩

/-- A text whose braces match closes nothing if it opens nothing. -/
theorem no_braces_of_balanced (text : List Char) (hbalanced : depthAfter 0 text = some 0)
    (hopen : '\x7b' ∉ text) : ∀ c ∈ text, c ≠ '\x7b' ∧ c ≠ '\x7d' := by
  induction text with
  | nil => simp
  | cons c rest ih =>
      rw [List.mem_cons, not_or] at hopen
      rcases brace_cases c with rfl | rfl | hc
      · exact absurd rfl hopen.1
      · simp at hbalanced
      · rw [depthAfter_other 0 c rest hc] at hbalanced
        exact List.forall_mem_cons.2 ⟨hc, ih hbalanced hopen.2⟩

/-- The start of a text, up to the first brace, holds no stop if no semicolon stands outside the
braces. -/
theorem not_isStop_of_hasOuterSemicolon (head rest : List Char)
    (hhead : ∀ c ∈ head, c ≠ '\x7b' ∧ c ≠ '\x7d')
    (h : hasOuterSemicolon 0 (head ++ rest) = false) : ∀ c ∈ head, isStop c = false := by
  induction head with
  | nil => simp
  | cons c head ih =>
      obtain ⟨hc, hlater⟩ := List.forall_mem_cons.1 hhead
      rw [List.cons_append, hasOuterSemicolon, if_neg hc.1, if_neg hc.2, beq_self_eq_true,
        Bool.true_and, Bool.or_eq_false_iff] at h
      refine List.forall_mem_cons.2 ⟨?_, ih hlater h.2⟩
      rw [isStop, beq_false_of_ne hc.1, beq_false_of_ne hc.2, h.1]
      rfl

namespace ArrowMember

variable (member : ArrowMember)

theorem depthAfter_value : depthAfter 0 member.value = some 0 := by
  simpa [isBalanced] using member.balanced

/-- What stands in front of the expression. -/
def opening : List Char :=
  member.lead.text ++ (signature member.modifiers member.type.text member.typeGap member.name ++
    (member.nameGap.text ++ ['=', '>']))

theorem not_isStop_opening : ∀ c ∈ member.opening, isStop c = false := by
  intro c hc
  simp only [opening, List.mem_append, List.mem_cons, List.not_mem_nil, or_false] at hc
  rcases hc with hlead | hsignature | hgap | rfl | rfl
  · exact not_isStop_of_isBlank c (member.lead.blank c hlead)
  · exact not_isStop_of_isSignatureChar c
      (isSignatureChar_of_mem _ _ _ _ member.type.isWord c hsignature)
  · exact not_isStop_of_isBlank c (member.nameGap.blank c hgap)
  · decide
  · decide

/-- The start of the member up to some place in the expression declares the property if a semicolon
ends it there. -/
theorem declared?_opening (hstatic : (modifierWords member.modifiers).contains "static".toList =
    false) (value : List Char) (terminator : Terminator) :
    Segment.declared? { text := member.opening ++ value, terminator } =
      if terminator = .semicolon then some (.property member.field) else none := by
  have hword := member.type.isWord
  have hskip : skipAttributes (member.opening ++ value) =
      signature member.modifiers member.type.text member.typeGap member.name ++
        (member.nameGap.text ++ '=' :: '>' :: value) := by
    rw [← skipAttributes_signature member.modifiers _ member.typeGap member.name hword
      member.lead.text member.lead.blank []]
    simp [opening, attributesText]
  have hproperty : declaredProperty? ⟨[], member.modifiers⟩ member.type.text member.name =
      some (.property member.field) := by
    rw [declaredProperty?_type, Front.has, ← modifierWords, hstatic]
    rfl
  rw [declared?_of_equals ⟨[], member.modifiers⟩ _ _ _ hword _ member.nameGap.text ('>' :: value)
    member.nameGap.blank hskip, arrow?_arrow, Option.bind_some, hproperty]
  cases terminator <;> rfl

/-- A member whose expression has no block declares its property. -/
theorem declares_plain (hstatic : (modifierWords member.modifiers).contains "static".toList = false)
    (hplain : '\x7b' ∉ member.value) : Declares member.text [.property member.field] := by
  have hbraces := no_braces_of_balanced member.value member.depthAfter_value hplain
  have hvalue : ∀ c ∈ member.value, isStop c = false :=
    not_isStop_of_hasOuterSemicolon member.value [] hbraces (by simpa using member.one_statement)
  have hstatement := Declares.statement (member.opening ++ member.value)
    (List.forall_mem_append.2 ⟨member.not_isStop_opening, hvalue⟩)
  rw [member.declared?_opening hstatic, if_pos rfl, Option.toList_some] at hstatement
  have htext : member.text = member.opening ++ member.value ++ [';'] := by
    simp [text, opening]
  rw [htext]
  exact hstatement

/-- A member whose expression has a block declares what is read behind the block: the opening brace
ends the segment, and a segment with an arrow that ends at a brace declares nothing. -/
theorem declares_block (hstatic : (modifierWords member.modifiers).contains "static".toList = false)
    (hblock : '\x7b' ∈ member.value) :
    ∃ head inside tail, member.value = head ++ '\x7b' :: (inside ++ '\x7d' :: tail) ∧
      '\x7b' ∉ head ∧ isBalanced inside = true ∧
      Declares member.text (readMembers (tail ++ [';'])) := by
  obtain ⟨head, inside, tail, hvalue, hhead, hinside, htail⟩ :=
    exists_firstBlock member.value member.depthAfter_value hblock
  have honly := member.one_statement
  rw [hvalue] at honly
  have hpiece := List.forall_mem_append.2 ⟨member.not_isStop_opening,
    not_isStop_of_hasOuterSemicolon head _ hhead honly⟩
  have hfirst := Declares.block _ inside hpiece hinside
  rw [member.declared?_opening hstatic, if_neg (by decide), Option.toList_none] at hfirst
  have hboth := hfirst.append (isComplete_semicolon tail htail).declares
  have htext : member.text = member.opening ++ head ++ '\x7b' :: (inside ++ ['\x7d']) ++
      (tail ++ [';']) := by
    simp [text, opening, hvalue]
  refine ⟨head, inside, tail, hvalue, fun hmem => (hhead _ hmem).1 rfl, ?_, ?_⟩
  · simpa [isBalanced] using hinside
  · rw [htext]
    exact hboth

end ArrowMember

/-- The properties of a class are read from the text behind its opening brace. -/
theorem properties_eq_readProperties (masked front inside : List Char) (found : ClassOutline)
    (hfound : found ∈ outlineMasked masked) (hopen : found.bodyOpen = some (byteLength front))
    (hmasked : masked = front ++ '\x7b' :: inside) : found.properties = readProperties inside := by
  obtain ⟨header, hheader, rfl⟩ := List.mem_map.1 hfound
  obtain ⟨passed, gap, inside', hmasked', -, -, hplace, houtline⟩ :=
    exists_opening masked header _ hheader hopen
  obtain ⟨-, hsame⟩ := append_inj_of_byteLength front ('\x7b' :: inside) (passed ++ gap)
    ('\x7b' :: inside') (by rw [← hmasked, hmasked', List.append_assoc]) hplace
  rw [houtline, (List.cons.inj hsame).2, readProperties, ← readMembers_eq (byteLength front + 1)]
  rfl

/-- The properties of a class with a property that has an arrow: those of the members before it,
then the property itself if its expression has no block, or else what is read behind the first
block of the expression, then those of the text behind it. -/
theorem properties_arrow_member (text : String) (found : ClassOutline)
    (front before rest : List Char) (member : ArrowMember) (hfound : found ∈ outline text)
    (hopen : found.bodyOpen = some (byteLength front))
    (hmask : mask text.toList = front ++ '\x7b' :: (before ++ (member.text ++ rest)))
    (hbefore : IsComplete before)
    (hstatic : (modifierWords member.modifiers).contains "static".toList = false) :
    ∃ own, found.properties = readProperties before ++ (own ++ readProperties rest) ∧
      ('\x7b' ∉ member.value → own = [member.field]) ∧
      ('\x7b' ∈ member.value → ∃ head inside tail,
        member.value = head ++ '\x7b' :: (inside ++ '\x7d' :: tail) ∧ '\x7b' ∉ head ∧
          isBalanced inside = true ∧ own = readProperties (tail ++ [';'])) := by
  have hread := properties_eq_readProperties _ front _ found hfound hopen hmask
  have hwhole : ∀ declared, Declares member.text declared → found.properties =
      readProperties before ++ (properties declared ++ readProperties rest) := by
    intro declared hdeclared
    have hsegments := (hbefore.declares.append hdeclared).segments 0 rest
    rw [readMembers_eq, readMembers_eq, List.append_assoc] at hsegments
    rw [hread, readProperties, hsegments, properties_append, properties_append, List.append_assoc]
    rfl
  by_cases hblock : '\x7b' ∈ member.value
  · obtain ⟨head, inside, tail, hvalue, hhead, hinside, hdeclares⟩ :=
      member.declares_block hstatic hblock
    exact ⟨_, hwhole _ hdeclares, fun hplain => absurd hblock hplain,
      fun _ => ⟨head, inside, tail, hvalue, hhead, hinside, rfl⟩⟩
  · exact ⟨_, hwhole _ (member.declares_plain hstatic hblock), fun _ => rfl,
      fun hopened => absurd hopened hblock⟩

theorem isBlank_of_mem_space : ∀ c ∈ [' '], isBlank c = true := by
  decide

/-- A property whose expression chooses between two new objects. -/
def choosingMember : ArrowMember :=
  { lead := ⟨[' '], isBlank_of_mem_space⟩
    modifiers := [(⟨"public".toList, by decide +kernel⟩, ⟨' ', [], isBlank_of_mem_space⟩)]
    type := ⟨"Item".toList, by decide +kernel, by decide +kernel, by decide +kernel,
      by decide +kernel⟩
    typeGap := ⟨' ', [], isBlank_of_mem_space⟩
    name := ⟨"Best".toList, by decide +kernel, by decide +kernel⟩
    nameGap := ⟨[' '], isBlank_of_mem_space⟩
    value := " ok ? new Good \x7b \x7d : new Bad \x7b \x7d".toList
    balanced := by decide +kernel
    one_statement := by decide +kernel }

/-- A class with a property in front of the one that chooses. -/
def choosingClass : String :=
  "class A \x7b int Id \x7b get; \x7d" ++ String.ofList choosingMember.text ++ " \x7d"

/-- What an outline shows of this class. -/
def choosingOutline : ClassOutline :=
  { name := "A"
    keywordOffset := 0
    bodyOpen := some 8
    bodyClose := some 79
    properties :=
      [{ name := "Id", declaredType := "int" }, { name := "Bad", declaredType := ": new" }]
    hasToString := false }

theorem properties_choosing_member :
    choosingOutline ∈ outline choosingClass ∧
      choosingOutline.bodyOpen = some (byteLength "class A ".toList) ∧
      mask choosingClass.toList = "class A ".toList ++
        '\x7b' :: (" int Id \x7b get; \x7d".toList ++ (choosingMember.text ++ " \x7d".toList)) ∧
      ∃ own, choosingOutline.properties = readProperties " int Id \x7b get; \x7d".toList ++
          (own ++ readProperties " \x7d".toList) ∧
        ('\x7b' ∉ choosingMember.value → own = [choosingMember.field]) ∧
        ('\x7b' ∈ choosingMember.value → ∃ head inside tail,
          choosingMember.value = head ++ '\x7b' :: (inside ++ '\x7d' :: tail) ∧ '\x7b' ∉ head ∧
            isBalanced inside = true ∧ own = readProperties (tail ++ [';'])) := by
  have hfound : choosingOutline ∈ outline choosingClass := by decide +kernel
  have hopen : choosingOutline.bodyOpen = some (byteLength "class A ".toList) := by decide +kernel
  have hmask : mask choosingClass.toList = "class A ".toList ++
      '\x7b' :: (" int Id \x7b get; \x7d".toList ++ (choosingMember.text ++ " \x7d".toList)) := by
    decide +kernel
  exact ⟨hfound, hopen, hmask, properties_arrow_member choosingClass choosingOutline _ _ _
    choosingMember hfound hopen hmask ⟨by decide +kernel, by decide +kernel⟩ (by decide +kernel)⟩

/-- The property is not found, and the second block is taken for that of a property. -/
theorem outline_choosingClass :
    (outline choosingClass).map ClassOutline.properties =
        [[{ name := "Id", declaredType := "int" }, { name := "Bad", declaredType := ": new" }]] ∧
      choosingMember.field = { name := "Best", declaredType := "Item" } := by
  decide +kernel

end RecordText.Source
