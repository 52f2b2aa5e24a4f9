import RecordText.Proofs.InsertedOverride
import RecordText.Proofs.MemberSegments

/-!
# The outline of a class tree

The text of a class tree holds no trivia, so masking leaves it as it is. Its
headers are the heads of the tree's classes, and the body behind each head is
cut into the segments of that class's own members. The outline of the text is
therefore the outline that is expected of the tree.

## Implementation notes

Members and nested classes are met one after the other, so both the headers and
the segments are found by induction on the members of a class. What stands
before the members does not matter as long as it cannot turn the word `class`
into a constraint.
-/

namespace RecordText.Source

open RecordText.Text

/-- Masking leaves a text as it is. -/
def IsQuiet (text : List Char) : Prop :=
  ∀ c ∈ text, opensTrivia c = false

theorem IsQuiet.append {front back : List Char} (hfront : IsQuiet front) (hback : IsQuiet back) :
    IsQuiet (front ++ back) :=
  List.forall_mem_append.2 ⟨hfront, hback⟩

theorem IsQuiet.cons {c : Char} {rest : List Char} (hc : opensTrivia c = false)
    (hrest : IsQuiet rest) : IsQuiet (c :: rest) :=
  List.forall_mem_cons.2 ⟨hc, hrest⟩

theorem IsQuiet.flatMap {α : Type} (items : List α) (text : α → List Char)
    (h : ∀ item ∈ items, IsQuiet (text item)) : IsQuiet (items.flatMap text) := by
  intro c hc
  obtain ⟨item, hitem, hin⟩ := List.mem_flatMap.1 hc
  exact h item hitem c hin

theorem IsQuiet.blank {text : List Char} (h : ∀ c ∈ text, isBlank c = true) : IsQuiet text :=
  fun c hc => not_opensTrivia_of_isBlank c (h c hc)

theorem IsQuiet.gap (gap : Gap) : IsQuiet gap.text :=
  IsQuiet.blank gap.blank

theorem IsQuiet.wordy {word : List Char} (h : ∀ c ∈ word, isWordChar c = true) :
    IsQuiet word := by
  intro c hc
  have hchar := h c hc
  by_contra hopens
  simp only [opensTrivia, Bool.not_eq_false, Bool.or_eq_true, beq_iff_eq] at hopens
  rcases hopens with ((rfl | rfl) | rfl) | rfl <;> revert hchar <;> decide

theorem IsQuiet.name (name : NameText) : IsQuiet name.text :=
  not_opensTrivia_of_mem_isName name.text name.isName

theorem IsQuiet.front (front : Front) : IsQuiet front.text := by
  apply IsQuiet.append
  · apply IsQuiet.flatMap
    intro item _
    exact .cons (by decide) (.append item.1.quiet (.cons (by decide) (.gap item.2)))
  · apply IsQuiet.flatMap
    intro item _
    exact .append (.wordy (isWordChar_of_mem_modifier item.1.1 item.1.2)) (.gap item.2)

theorem IsQuiet.initializer (initializer : Initializer) : IsQuiet initializer.text :=
  .cons (by decide) (.append (.gap initializer.gap) initializer.value.quiet)

theorem IsQuiet.block (block : BlockText) : IsQuiet ('\x7b' :: (block.text ++ ['\x7d'])) :=
  .cons (by decide) (.append block.quiet (by unfold IsQuiet; decide))

theorem IsQuiet.memberRest (rest : MemberRest) : IsQuiet rest.text := by
  have hend : IsQuiet [';'] := by
    unfold IsQuiet
    decide
  cases rest with
  | autoProperty block => exact .block block
  | initializedProperty block gap initializer =>
      have hboth := (IsQuiet.block block).append ((IsQuiet.gap gap).append
        ((IsQuiet.initializer initializer).append hend))
      simpa [MemberRest.text] using hboth
  | arrowProperty value => exact .cons (by decide) (.cons (by decide) (.append value.quiet hend))
  | field => exact hend
  | initializedField initializer => exact (IsQuiet.initializer initializer).append hend
  | method parameters gap block =>
      exact .cons (by decide) (.append parameters.quiet (.cons (by decide)
        (.append (.gap gap) (.block block))))

theorem IsQuiet.member (member : MemberDecl) : IsQuiet member.text :=
  .append (.front member.front) (.append (.wordy member.type.wordy) (.append (.gap member.typeGap)
    (.append (.name member.name) (.append (.gap member.nameGap) (.memberRest member.rest)))))

theorem IsQuiet.head (head : ClassHead) : IsQuiet head.text :=
  .append (.front head.front) (.append (.wordy isWord_classWord.wordy)
    (.append (.gap head.classGap) (.append (.name head.name) (.gap head.nameGap))))

theorem IsQuiet.members (members : Members) : IsQuiet members.text := by
  induction members with
  | done gap => exact .gap gap
  | member gap first rest ih => exact .append (.gap gap) (.append (.member first) ih)
  | nested gap head inner rest ihinner ihrest =>
      exact .append (.gap gap) (.append (.head head) (.cons (by decide)
        (.append ihinner (.cons (by decide) ihrest))))

theorem IsQuiet.tree (tree : ClassTree) : IsQuiet tree.text :=
  .append (.head tree.head) (.cons (by decide) (.append (.members tree.members)
    (by unfold IsQuiet; decide)))

/-- The braces between those of a class match. -/
theorem Members.depthAfter_text (members : Members) : depthAfter 0 members.text = some 0 := by
  induction members with
  | done gap =>
      exact depthAfter_of_no_braces 0 _ fun c hc => not_brace_of_isBlank c (gap.blank c hc)
  | member gap first rest ih =>
      rw [Members.text, ← List.append_assoc, depthAfter_append,
        (Declares.member gap first).balanced]
      exact ih
  | nested gap head inner rest ihinner ihrest =>
      have hsplit : (Members.nested gap head inner rest).text =
          gap.text ++ (head.text ++ '\x7b' :: (inner.text ++ ['\x7d'])) ++ rest.text := by
        simp [Members.text]
      rw [hsplit, depthAfter_append, (Declares.nested gap head inner.text ihinner).balanced]
      exact ihrest

/-- The segments of a class body declare what an outline shows of the class's own members. -/
theorem Members.segments_declared (members : Members) (offset : Nat) :
    (walk 0 [] offset members.text).segments.filterMap Segment.declared? = members.declared := by
  induction members generalizing offset with
  | done gap =>
      have hwalk := walk_zero_piece [] offset gap.text []
        fun c hc => not_isStop_of_isBlank c (gap.blank c hc)
      rw [List.append_nil, walk_nil] at hwalk
      rw [Members.text, hwalk]
      rfl
  | member gap first rest ih =>
      rw [Members.text, ← List.append_assoc, (Declares.member gap first).segments, ih]
      rfl
  | nested gap head inner rest _ ihrest =>
      have hsplit : (Members.nested gap head inner rest).text =
          gap.text ++ (head.text ++ '\x7b' :: (inner.text ++ ['\x7d'])) ++ rest.text := by
        simp [Members.text]
      rw [hsplit, (Declares.nested gap head inner.text inner.depthAfter_text).segments, ihrest]
      rfl

/-- The header of a class is shown with the class's own members. -/
theorem ClassHead.outline_header (head : ClassHead) (offset : Nat) (members : Members)
    (rest : List Char) :
    (head.header offset (members.text ++ '\x7d' :: rest)).outline =
      head.outline offset members := by
  have hplace : (head.header offset (members.text ++ '\x7d' :: rest)).endOffset +
      byteLength head.nameGap.text = offset + byteLength head.text := by
    simp only [ClassHead.header, ClassHead.text, byteLength_append]
    omega
  have hopen : findOpen? (head.header offset (members.text ++ '\x7d' :: rest)).endOffset
      (head.header offset (members.text ++ '\x7d' :: rest)).rest =
        some (offset + byteLength head.text, members.text ++ '\x7d' :: rest) := by
    have hgap := findOpen?_gap (head.header offset (members.text ++ '\x7d' :: rest)).endOffset
      head.nameGap.text ('\x7b' :: (members.text ++ '\x7d' :: rest))
      fun c hc => not_isStop_of_isBlank c (head.nameGap.blank c hc)
    rw [hplace, findOpen?, if_pos rfl] at hgap
    exact hgap
  rw [Header.outline_of_some _ _ _ hopen, walk_close 0 [] _ _ _ members.depthAfter_text]
  simp only [ClassOutline.ofBody, ClassHead.outline, ClassHead.header, members.segments_declared]

/-- A member ends with a sign behind which a class can be declared. -/
theorem isSettled_member (member : MemberDecl) (far : List Char) :
    IsSettled (member.text.reverse ++ far) := by
  have hlast : ∃ front,
      member.rest.text = front ++ [';'] ∨ member.rest.text = front ++ ['\x7d'] := by
    cases member.rest with
    | autoProperty block => exact ⟨'\x7b' :: block.text, Or.inr rfl⟩
    | initializedProperty block gap initializer =>
        exact ⟨'\x7b' :: (block.text ++ '\x7d' :: (gap.text ++ initializer.text)),
          Or.inl (by simp [MemberRest.text])⟩
    | arrowProperty value => exact ⟨'=' :: '>' :: value.text, Or.inl rfl⟩
    | field => exact ⟨[], Or.inl rfl⟩
    | initializedField initializer => exact ⟨initializer.text, Or.inl rfl⟩
    | method parameters gap block =>
        exact ⟨'(' :: (parameters.text ++ ')' :: (gap.text ++ '\x7b' :: block.text)),
          Or.inr (by simp [MemberRest.text])⟩
  obtain ⟨front, hfront | hfront⟩ := hlast
  · intro c hc
    obtain rfl : ';' = c := by simpa [MemberDecl.text, hfront] using hc
    decide
  · intro c hc
    obtain rfl : '\x7d' = c := by simpa [MemberDecl.text, hfront] using hc
    decide

theorem isSettled_brace (far : List Char) (c : Char) (hc : c = '\x7b' ∨ c = '\x7d') :
    IsSettled (c :: far) := by
  rintro d hd
  obtain rfl : c = d := by simpa using hd
  rcases hc with rfl | rfl <;> decide

/-- The headers between the braces of a class are shown as the classes among its members. -/
theorem outlines_members (members : Members) (before : List Char) (offset : Nat)
    (rest : List Char) (h : IsSettled before) :
    (headers before offset (members.text ++ '\x7d' :: rest)).map Header.outline =
      members.outlines offset ++
        (headers ('\x7d' :: (members.text.reverse ++ before))
          (offset + byteLength members.text + 1) rest).map Header.outline := by
  induction members generalizing before offset rest with
  | done gap =>
      have hskip := (Skips.gap gap).append (Skips.of_ne ['\x7d'] (by decide))
      have hheaders := hskip before offset rest
      rw [List.append_assoc, List.singleton_append] at hheaders
      rw [Members.text, hheaders]
      simp [Members.outlines, byteLength, Nat.add_assoc]
  | member gap first later ih =>
      have hsplit : (Members.member gap first later).text ++ '\x7d' :: rest =
          gap.text ++ first.text ++ (later.text ++ '\x7d' :: rest) := by
        simp [Members.text]
      have hplace : offset + byteLength (gap.text ++ first.text) =
          offset + byteLength gap.text + byteLength first.text := by
        rw [byteLength_append, Nat.add_assoc]
      have hsettled : IsSettled ((gap.text ++ first.text).reverse ++ before) := by
        rw [List.reverse_append, List.append_assoc]
        exact isSettled_member first _
      rw [hsplit, ((Skips.gap gap).append (Skips.member first)) before offset, hplace,
        ih _ _ rest hsettled, Members.outlines]
      congr 3
      · simp [Members.text]
      · simp [Members.text, Nat.add_assoc]
  | nested gap head inner later ihinner ihlater =>
      have hsplit : (Members.nested gap head inner later).text ++ '\x7d' :: rest =
          gap.text ++ (head.text ++ '\x7b' :: (inner.text ++ '\x7d' ::
            (later.text ++ '\x7d' :: rest))) := by
        simp [Members.text]
      have hready := IsReady.gap gap before h
      rw [hsplit, Skips.gap gap before offset, headers_head head _ _ _ hready, List.map_cons,
        head.outline_header, ihinner _ _ _ (isSettled_brace _ _ (Or.inl rfl)),
        ihlater _ _ _ (isSettled_brace _ _ (Or.inr rfl)), Members.outlines, List.cons_append,
        List.append_assoc]
      congr 5
      · simp [Members.text]
      · simp only [Members.text, byteLength_append, byteLength, utf8Size_open, utf8Size_close]
        omega

/-- White space around a text, or none. -/
structure Margin where
  text : List Char
  blank : ∀ c ∈ text, isBlank c = true

theorem mask_of_isQuiet (text : List Char) (h : IsQuiet text) : mask text = text := by
  have hplain := maskFrom_append_of_plain [] text [] h
  rw [List.append_nil] at hplain
  rw [mask_eq_maskFrom, hplain, maskFrom, cut, List.flatMap_nil, List.append_nil]

/-- The outline of a class tree's text is the one that is expected: all classes in the order of
their headers, each with the properties and the override among its own members. -/
theorem outline_tree (lead trail : Margin) (tree : ClassTree) :
    outline (String.ofList (lead.text ++ (tree.text ++ trail.text))) =
      tree.outlines (byteLength lead.text) := by
  have hquiet : IsQuiet (lead.text ++ (tree.text ++ trail.text)) :=
    .append (.blank lead.blank) (.append (.tree tree) (.blank trail.blank))
  have hsplit : tree.text ++ trail.text =
      tree.head.text ++ '\x7b' :: (tree.members.text ++ '\x7d' :: trail.text) := by
    simp [ClassTree.text]
  have hlead : Skips lead.text := Skips.of_ne _ (not_mem_of_isBlank _ _ lead.blank (by decide))
  have htrail : Skips trail.text := Skips.of_ne _ (not_mem_of_isBlank _ _ trail.blank (by decide))
  have hready : IsReady (lead.text.reverse ++ []) := by
    apply isReady_of_blanks _ [] _ (by simp [IsSettled]) (Or.inr rfl)
    intro c hc
    exact lead.blank c (List.mem_reverse.1 hc)
  have hend : ∀ before offset, headers before offset trail.text = [] := by
    intro before offset
    have hskip := htrail before offset []
    rwa [List.append_nil, headers_nil] at hskip
  rw [outline, String.toList_ofList, outlineChars, mask_of_isQuiet _ hquiet, hlead [] 0,
    Nat.zero_add, hsplit, headers_head tree.head _ _ _ hready, List.map_cons,
    tree.head.outline_header,
    outlines_members tree.members _ _ _ (isSettled_brace _ _ (Or.inl rfl)), hend, List.map_nil,
    List.append_nil]
  rfl

/-- A class with a property, a class inside, and an override of `ToString`. -/
def nestedTree : ClassTree :=
  let space : Gap := ⟨' ', [], by decide⟩
  let number : TypeWord :=
    ⟨['i', 'n', 't'], by decide +kernel, by decide, by decide +kernel, by decide +kernel⟩
  let plain : Front := ⟨[], []⟩
  let property : MemberDecl :=
    { front := plain, type := number, typeGap := space, nameGap := space
      name := ⟨['A'], by decide +kernel, by decide⟩
      rest := .autoProperty
        ⟨⟨[' ', 'g', 'e', 't', ';', ' '], by decide, by decide, by decide⟩, by decide⟩ }
  let inner : MemberDecl :=
    { front := plain, type := number, typeGap := space, nameGap := space
      name := ⟨['B'], by decide +kernel, by decide⟩
      rest := .arrowProperty ⟨[' ', '1'], by decide, by decide, by decide⟩ }
  let method : MemberDecl :=
    { front := ⟨[], [(⟨"override".toList, by decide +kernel⟩, space)]⟩
      type := ⟨"string".toList, by decide +kernel, by decide +kernel, by decide +kernel,
        by decide +kernel⟩
      typeGap := space, nameGap := space
      name := ⟨"ToString".toList, by decide +kernel, by decide +kernel⟩
      rest := .method ⟨[], by decide, by decide, by decide⟩ space
        ⟨⟨[], by decide, by decide, by decide⟩, by decide⟩ }
  { head := ⟨plain, space, ⟨['O'], by decide +kernel, by decide⟩, space⟩
    members := .member space property
      (.nested space ⟨plain, space, ⟨['@', 'I'], by decide +kernel, by decide⟩, space⟩
        (.member space inner (.done space)) (.member space method (.done space))) }

/-- The property of the class inside stays with the class inside. -/
theorem outline_nestedTree :
    String.ofList (nestedTree.text ++ []) =
        "class O \x7b int A \x7b get; \x7d class @I \x7b int B => 1; \x7d " ++
          "override string ToString () \x7b\x7d \x7d" ∧
      outline (String.ofList (nestedTree.text ++ [])) =
        [{ name := "O", keywordOffset := 0, bodyOpen := some 8, bodyClose := some 81
           properties := [{ name := "A", declaredType := "int" }], hasToString := true },
          { name := "@I", keywordOffset := 25, bodyOpen := some 34, bodyClose := some 48
            properties := [{ name := "B", declaredType := "int" }], hasToString := false }] := by
  refine ⟨by decide +kernel, ?_⟩
  have htree := outline_tree ⟨[], by decide⟩ ⟨[], by decide⟩ nestedTree
  rw [List.nil_append] at htree
  rw [htree]
  decide +kernel

end RecordText.Source
