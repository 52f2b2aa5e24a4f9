import RecordText.Edit.Insertion
import RecordText.Member
import RecordText.Proofs.HeaderForm

/-!
# The lines of a member

Steps are laid out as the lines that their outline lists, each behind the
indentation of its depth. The C# member of a valid descriptor is therefore a
fixed list of lines with one line for each field, and indenting it again puts
the indentation in front of each of these lines.
-/

namespace RecordText

open RecordText.Text

theorem mem_of_mem_copies (n : Nat) (text : List Char) (c : Char) (h : c ∈ copies n text) :
    c ∈ text := by
  obtain ⟨copy, hcopy, hc⟩ := List.mem_flatten.1 h
  rwa [List.eq_of_mem_replicate hcopy] at hc

/-- A listed line as it is written, with its indentation. -/
def writtenLine (unit : List Char) (line : Nat × String) : List Char :=
  indentLine unit line.1 line.2.toList

/-- Listed lines as they are written, each with its end. -/
def writtenLines (unit : List Char) (lines : List (Nat × String)) : List Char :=
  lines.flatMap fun line => writtenLine unit line ++ ['\n']

theorem writtenLines_append (unit : List Char) (front back : List (Nat × String)) :
    writtenLines unit (front ++ back) = writtenLines unit front ++ writtenLines unit back :=
  List.flatMap_append

mutual

/-- A step writes the lines of its outline and comes back to its depth. -/
theorem Emitter.step_eq (emitter : Emitter) : (step : Step) → emitter.step step =
    { emitter with written := emitter.written ++
        writtenLines emitter.unit (Step.outline emitter.depth step) }
  | .line text => by
      simp [Emitter.step, Emitter.line, Step.outline, writtenLines, writtenLine]
  | .block opening closing body => by
      rw [Emitter.step, Emitter.steps_eq _ body]
      simp [Emitter.line, Emitter.deeper, Emitter.shallower, Step.outline, writtenLines,
        writtenLine]

/-- Steps write the lines of their outline and come back to their depth. -/
theorem Emitter.steps_eq (emitter : Emitter) : (steps : List Step) → emitter.steps steps =
    { emitter with written := emitter.written ++
        writtenLines emitter.unit (Step.outlineAll emitter.depth steps) }
  | [] => by simp [Emitter.steps, Step.outlineAll, writtenLines]
  | first :: rest => by
      rw [Emitter.steps, Emitter.step_eq emitter first, Emitter.steps_eq _ rest]
      simp [Step.outlineAll, writtenLines_append]

end

/-- Lines joined by `sep` are the lines each in front of `sep`, less the last one. -/
theorem flatMap_end_eq_joinWith (sep line : List Char) (rest : List (List Char)) :
    (line :: rest).flatMap (· ++ sep) = joinWith sep (line :: rest) ++ sep := by
  induction rest generalizing line with
  | nil => simp [joinWith]
  | cons next rest ih =>
      rw [List.flatMap_cons, ih next, joinWith]
      simp

/-- Lines joined by `sep` are the first line and the others, each behind `sep`. -/
theorem joinWith_cons (sep line : List Char) (rest : List (List Char)) :
    joinWith sep (line :: rest) = line ++ rest.flatMap (sep ++ ·) := by
  induction rest generalizing line with
  | nil => simp [joinWith]
  | cons next rest ih =>
      rw [joinWith, ih next, List.flatMap_cons]
      simp

/-- Joined lines are the first ones, each with its end, in front of the joined others. -/
theorem joinWith_append (front rest : List (List Char)) (h : rest ≠ []) :
    joinWith ['\n'] (front ++ rest) =
      front.flatMap (· ++ ['\n']) ++ joinWith ['\n'] rest := by
  induction front with
  | nil => rfl
  | cons line front ih =>
      obtain ⟨next, more, heq⟩ :=
        List.exists_cons_of_ne_nil (List.append_ne_nil_of_right_ne_nil front h)
      rw [List.cons_append, List.flatMap_cons, List.append_assoc, ← ih, heq, joinWith]

theorem Emitter.finishChars_of_end (emitter : Emitter) (text : List Char)
    (h : emitter.written = text ++ ['\n']) : emitter.finishChars = text := by
  simp [Emitter.finishChars, h]

theorem Step.outlineAll_lines (depth : Nat) (texts : List String) :
    Step.outlineAll depth (texts.map Step.line) = texts.map fun text => (depth, text) := by
  induction texts with
  | nil => rfl
  | cons text rest ih => simp [Step.outlineAll, Step.outline, ih]

/-- The lines inside the block of the C# member. -/
def csharpBodyLines (names : List String) : List String :=
  "var result = new System.Text.StringBuilder();" ::
    (names.map Member.csharpEntry ++ ["return result.ToString();"])

/-- The lines of the C# member. -/
def csharpLines (unit : List Char) (names : List String) : List (List Char) :=
  "public override string ToString()".toList :: ['\x7b'] ::
    ((csharpBodyLines names).map (fun line => unit ++ line.toList) ++ [['\x7d']])

/-- The line that prints one field, up to the field's name. -/
def entryOpening : List Char := "result.AppendFormat(\"\x7b0\x7d: \x7b1\x7d, \", nameof(".toList

/-- What stands between the two mentions of a field's name. -/
def entryMiddle : List Char := "), this.".toList

/-- The end of the line that prints one field. -/
def entryEnd : List Char := ");".toList

theorem csharpEntry_toList (name : String) : (Member.csharpEntry name).toList =
    entryOpening ++ (name.toList ++ (entryMiddle ++ (name.toList ++ entryEnd))) := by
  have hentry : Member.csharpEntry name =
      "result.AppendFormat(\"\x7b0\x7d: \x7b1\x7d, \", nameof(" ++ name ++ "), this." ++ name ++
        ");" := by
    delta Member.csharpEntry
    rfl
  rw [hentry]
  simp only [String.toList_append, List.append_assoc]
  rfl

theorem entry_ne_nil (name : String) : (Member.csharpEntry name).toList ≠ [] := by
  rw [csharpEntry_toList]
  have hopening : entryOpening ≠ [] := by decide
  simp [hopening]

theorem bodyLine_ne_nil (names : List String) (line : String) (h : line ∈ csharpBodyLines names) :
    line.toList ≠ [] := by
  simp only [csharpBodyLines, List.mem_cons, List.mem_append, List.mem_map, List.not_mem_nil,
    or_false] at h
  rcases h with rfl | ⟨name, -, rfl⟩ | rfl
  · decide
  · exact entry_ne_nil name
  · decide

theorem outlineAll_csharpSteps (descriptor : Descriptor) :
    Step.outlineAll 0 (Member.csharpSteps descriptor) =
      (0, "public override string ToString()") :: (0, "\x7b") ::
        ((csharpBodyLines descriptor.fieldNames).map (fun line => (1, line)) ++ [(0, "\x7d")]) := by
  have hsteps : Member.csharpSteps descriptor =
      [.line "public override string ToString()",
        .block "\x7b" "\x7d" ((csharpBodyLines descriptor.fieldNames).map Step.line)] := by
    simp [Member.csharpSteps, csharpBodyLines]
  rw [hsteps]
  simp [Step.outlineAll, Step.outline, Step.outlineAll_lines]

theorem writtenLine_zero (unit : List Char) (text : String) :
    writtenLine unit (0, text) = text.toList := by
  simp only [writtenLine, indentLine]
  split
  · rename_i hempty
    exact (List.isEmpty_iff.1 hempty).symm
  · rfl

/-- Listed lines, each with its end, are the lines put together with one more end. -/
theorem writtenLines_eq_joinWith (unit : List Char) (lines : List (Nat × String))
    (h : lines ≠ []) :
    writtenLines unit lines = joinWith ['\n'] (lines.map (writtenLine unit)) ++ ['\n'] := by
  obtain ⟨line, rest, rfl⟩ := List.exists_cons_of_ne_nil h
  rw [List.map_cons, ← flatMap_end_eq_joinWith, writtenLines, ← List.map_cons, List.flatMap_map]

/-- The finished text of steps is the lines of their outline put together. -/
theorem Emitter.finishChars_steps (unit : List Char) (depth : Nat) (steps : List Step) :
    (Emitter.steps { unit, depth } steps).finishChars =
      joinWith ['\n'] ((Step.outlineAll depth steps).map (writtenLine unit)) := by
  rw [Emitter.steps_eq]
  cases hlines : Step.outlineAll depth steps with
  | nil => rfl
  | cons line rest =>
      apply Emitter.finishChars_of_end
      rw [← writtenLines_eq_joinWith _ _ (List.cons_ne_nil _ _)]
      rfl

/-- A member is laid out as the lines that its outline lists. -/
theorem layOut_eq_joinWith (style : Style) (descriptor : Descriptor) :
    (Member.layOut style descriptor).toList = joinWith ['\n']
      ((Step.outlineAll style.baseIndent (Member.steps style.language descriptor)).map
        (writtenLine style.indent.toList)) := by
  rw [Member.layOut, Emitter.finish, String.toList_ofList, Emitter.finishChars_steps]

/-- The C# member is laid out as its lines. -/
theorem layOut_csharp (indent : String) (descriptor : Descriptor) :
    (Member.layOut { language := .csharp, indent } descriptor).toList =
      joinWith ['\n'] (csharpLines indent.toList descriptor.fieldNames) := by
  rw [layOut_eq_joinWith]
  congr 1
  simp only [Member.steps, outlineAll_csharpSteps descriptor, List.map_cons, List.map_append,
    List.map_map, writtenLine_zero, csharpLines, List.map_nil]
  congr 3
  apply List.map_congr_left
  intro line hline
  have hne := bodyLine_ne_nil _ line hline
  simp [writtenLine, indentLine, copies, hne]

/-- Whether `c` is a sign that ends lines. -/
def isLineEnd (c : Char) : Bool :=
  c == '\n' || c == '\r'

theorem isBlank_of_isLineEnd (c : Char) (h : isLineEnd c = true) : isBlank c = true := by
  simp only [isLineEnd, Bool.or_eq_true, beq_iff_eq] at h
  rcases h with rfl | rfl <;> decide

/-- A character goes to the front of the first line, unless it ends a line. -/
theorem lines_cons_of_ne (c : Char) (rest : List Char) (hfeed : c ≠ '\n')
    (hreturn : c = '\r' → rest.head? ≠ some '\n') :
    lines (c :: rest) = consLine c (lines rest) := by
  rw [lines]
  · exact hfeed
  · rintro more rfl rfl
    exact hreturn rfl rfl

theorem lines_cons_of_not_isLineEnd (c : Char) (rest : List Char) (h : isLineEnd c = false) :
    lines (c :: rest) = consLine c (lines rest) := by
  simp only [isLineEnd, Bool.or_eq_false_iff, beq_eq_false_iff_ne] at h
  exact lines_cons_of_ne c rest h.1 fun hc => absurd hc h.2

/-- Whether a line stays as it is when an end is put behind it: no line feed stands inside it, and
it does not end with a carriage return, which would be read together with the end. -/
structure StaysLine (line : List Char) : Prop where
  not_feed : '\n' ∉ line
  not_return : line.getLast? ≠ some '\r'

theorem StaysLine.tail {c : Char} {line : List Char} (h : StaysLine (c :: line)) :
    StaysLine line := by
  constructor
  · intro hmem
    exact h.not_feed (List.mem_cons_of_mem _ hmem)
  · intro hlast
    apply h.not_return
    rw [List.getLast?_cons, hlast]
    rfl

theorem staysLine_of_not_isLineEnd (line : List Char) (h : ∀ c ∈ line, isLineEnd c = false) :
    StaysLine line := by
  constructor
  · intro hmem
    exact absurd (h _ hmem) (by decide)
  · intro hlast
    exact absurd (h _ (List.mem_of_getLast? hlast)) (by decide)

theorem lines_append_end (line rest : List Char) (h : StaysLine line) :
    lines (line ++ '\n' :: rest) = line :: lines rest := by
  induction line with
  | nil => rw [List.nil_append, lines]
  | cons c line ih =>
      have hfeed : c ≠ '\n' := fun hc => h.not_feed (by simp [hc])
      have hreturn : c = '\r' → (line ++ '\n' :: rest).head? ≠ some '\n' := by
        rintro rfl
        cases line with
        | nil => exact absurd rfl h.not_return
        | cons d line => simpa using fun hd : d = '\n' => h.tail.not_feed (by simp [hd])
      rw [List.cons_append, lines_cons_of_ne c _ hfeed hreturn, ih h.tail]
      rfl

theorem lines_single (line : List Char) (hne : line ≠ []) (h : '\n' ∉ line) :
    lines line = [line] := by
  induction line with
  | nil => exact absurd rfl hne
  | cons c line ih =>
      rw [List.mem_cons, not_or] at h
      have hhead : line.head? ≠ some '\n' := fun hhead => h.2 (List.mem_of_head? hhead)
      rw [lines_cons_of_ne c _ (Ne.symm h.1) fun _ => hhead]
      cases line with
      | nil => rfl
      | cons d line =>
          rw [ih (by simp) h.2]
          rfl

/-- The lines of a text are those that it was put together from. -/
theorem lines_joinWith (line : List Char) (rest : List (List Char))
    (h : ∀ l ∈ line :: rest, l ≠ [] ∧ StaysLine l) :
    lines (joinWith ['\n'] (line :: rest)) = line :: rest := by
  induction rest generalizing line with
  | nil =>
      obtain ⟨hne, hline⟩ := h line (by simp)
      exact lines_single line hne hline.not_feed
  | cons next rest ih =>
      obtain ⟨-, hline⟩ := h line (by simp)
      have hrest := ih next fun l hl => h l (List.mem_cons_of_mem _ hl)
      rw [joinWith, List.append_assoc, List.singleton_append, lines_append_end line _ hline, hrest]

/-- Lines that are not empty are indented one by one. -/
theorem reindent_joinWith (line : List Char) (rest : List (List Char)) (indent newline : List Char)
    (h : ∀ l ∈ line :: rest, l ≠ [] ∧ StaysLine l) :
    Edit.reindent (joinWith ['\n'] (line :: rest)) indent newline =
      joinWith newline ((line :: rest).map (indent ++ ·)) := by
  rw [Edit.reindent, lines_joinWith line rest h]
  congr 1
  apply List.map_congr_left
  intro l hl
  simp [(h l hl).1]

theorem isName_of_checkIdentifier (name : String)
    (h : Language.csharp.checkIdentifier name = .ok ()) : Source.isName name.toList = true :=
  Language.isBareForm_of_checkIdentifier _ name h

theorem checkName_eq_ok (language : Language) (role : Role) (name : String) (u : Unit)
    (h : checkName language role name = .ok u) : language.checkIdentifier name = .ok () := by
  unfold checkName at h
  split at h
  · rename_i hcheck
    exact hcheck
  · cases h

/-- Field names that pass the check are identifiers. -/
theorem checkIdentifier_of_checkFields (language : Language) (seen names : List String)
    (h : checkFields language seen names = .ok ()) :
    ∀ name ∈ names, language.checkIdentifier name = .ok () := by
  induction names generalizing seen with
  | nil => simp
  | cons name rest ih =>
      rw [checkFields] at h
      split at h
      · cases h
      · rename_i hname
        split at h
        · cases h
        · intro other hother
          rcases List.mem_cons.1 hother with rfl | hrest
          · exact checkName_eq_ok _ _ _ _ hname
          · exact ih _ h other hrest

/-- The type and the fields of a valid descriptor have identifiers for names. -/
theorem checkIdentifier_of_validate (language : Language) (descriptor : Descriptor) (u : Unit)
    (h : descriptor.validate language = .ok u) :
    language.checkIdentifier descriptor.typeName = .ok () ∧
      ∀ name ∈ descriptor.fieldNames, language.checkIdentifier name = .ok () := by
  unfold Descriptor.validate Descriptor.check at h
  split at h
  · cases h
  · rename_i hname
    refine ⟨checkName_eq_ok _ _ _ _ hname, ?_⟩
    cases hfields : checkFields language [] descriptor.fieldNames with
    | error fault =>
        rw [hfields] at h
        cases h
    | ok u => exact checkIdentifier_of_checkFields language [] _ hfields

/-- The member of a descriptor is laid out from field names of the right form. -/
theorem generate_csharp_eq_ok (descriptor : Descriptor) (indent : String) (member : Member)
    (h : descriptor.generate { language := .csharp, indent } = .ok member) :
    member.text.toList = joinWith ['\n'] (csharpLines indent.toList descriptor.fieldNames) ∧
      ∀ name ∈ descriptor.fieldNames, Source.isName name.toList = true := by
  unfold Descriptor.generate at h
  split at h
  · cases h
  · rename_i hvalid
    cases h
    obtain ⟨-, hnames⟩ := checkIdentifier_of_validate _ _ _ hvalid
    exact ⟨layOut_csharp indent descriptor,
      fun name hname => isName_of_checkIdentifier name (hnames name hname)⟩

theorem not_isLineEnd_bodyLine (names : List String)
    (hnames : ∀ name ∈ names, Source.isName name.toList = true) (line : String)
    (hline : line ∈ csharpBodyLines names) (c : Char) (hc : c ∈ line.toList) :
    isLineEnd c = false := by
  simp only [csharpBodyLines, List.mem_cons, List.mem_append, List.mem_map, List.not_mem_nil,
    or_false] at hline
  rcases hline with rfl | ⟨name, hname, rfl⟩ | rfl
  · revert c
    decide +kernel
  · by_contra hend
    have hblank := isBlank_of_isLineEnd c (by simpa using hend)
    have hout : c ∉ name.toList := by
      intro hmem
      rw [Source.not_isBlank_of_mem_isName _ (hnames name hname) c hmem] at hblank
      cases hblank
    rw [csharpEntry_toList] at hc
    simp only [List.mem_append, hout, false_or] at hc
    have hfixed : ∀ d ∈ entryOpening ++ entryMiddle ++ entryEnd, isLineEnd d = false := by
      decide +kernel
    apply hend
    apply hfixed
    simpa [or_assoc] using hc
  · revert c
    decide +kernel

/-- A line of the member is not empty and has no line end inside. -/
theorem csharpLines_single (unit : List Char) (names : List String)
    (hunit : ∀ c ∈ unit, isIndentChar c = true)
    (hnames : ∀ name ∈ names, Source.isName name.toList = true) :
    ∀ line ∈ csharpLines unit names, line ≠ [] ∧ ∀ c ∈ line, isLineEnd c = false := by
  intro line hline
  simp only [csharpLines, List.mem_cons, List.mem_append, List.mem_map, List.not_mem_nil,
    or_false] at hline
  rcases hline with rfl | rfl | ⟨body, hbody, rfl⟩ | rfl
  · decide +kernel
  · decide
  · refine ⟨by simp [bodyLine_ne_nil names body hbody], ?_⟩
    intro c hc
    rcases List.mem_append.1 hc with hin | hin
    · have hindent := hunit c hin
      simp only [isIndentChar, Bool.or_eq_true, beq_iff_eq] at hindent
      rcases hindent with rfl | rfl <;> decide
    · exact not_isLineEnd_bodyLine names hnames body hbody c hin
  · decide

/-- What stands between the braces of the member, when its lines are indented again. -/
def indentedBody (unit indent newline : List Char) (names : List String) : List Char :=
  (csharpBodyLines names).flatMap (fun line => newline ++ (indent ++ (unit ++ line.toList))) ++
    (newline ++ indent)

/-- Indenting the lines of the member gives its signature and its block, each on lines of its
own. -/
theorem reindent_csharpLines (unit indent newline : List Char) (names : List String)
    (hunit : ∀ c ∈ unit, isIndentChar c = true)
    (hnames : ∀ name ∈ names, Source.isName name.toList = true) :
    Edit.reindent (joinWith ['\n'] (csharpLines unit names)) indent newline =
      indent ++ ("public override string ToString()".toList ++ (newline ++ (indent ++
        '\x7b' :: (indentedBody unit indent newline names ++ ['\x7d'])))) := by
  have hsingle : ∀ line ∈ csharpLines unit names, line ≠ [] ∧ StaysLine line := by
    intro line hline
    obtain ⟨hne, hends⟩ := csharpLines_single unit names hunit hnames line hline
    exact ⟨hne, staysLine_of_not_isLineEnd line hends⟩
  unfold csharpLines at hsingle ⊢
  rw [reindent_joinWith _ _ indent newline hsingle, List.map_cons, joinWith_cons]
  simp [indentedBody, List.flatMap_map]

end RecordText
