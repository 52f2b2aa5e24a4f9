import RecordText.Proofs.InsertedLines
import RecordText.Proofs.SeparateMembers

/-!
# Members at a depth

A member can be indented in two ways: it is laid out at a depth from the start,
or it is laid out without indentation and its lines are indented afterwards.
Both give the same text. A member that is inserted in front of a closing brace
is indented in the second way, one unit deeper than the brace, so what is
inserted is the member that the first way gives at that depth.

## Main statements

* `Step.outlineAll_add`: steps at a greater depth have the same lines, each so
  much deeper.
* `Member.lines_layOut`: the lines of a laid out member, read back from its text.
* `Member.reindent_layOut`: indenting a member afterwards gives its lines at the
  depth.
* `generate_at_depth`: both ways agree, also where a member is inserted.

## Implementation notes

No line of a member is empty, holds a line feed or ends with a carriage return,
so cutting the text into lines loses nothing. The indentation unit may hold
carriage returns.
-/

namespace RecordText

open RecordText.Text

theorem copies_add (m n : Nat) (text : List Char) :
    copies (m + n) text = copies m text ++ copies n text := by
  rw [copies, List.replicate_add, List.flatten_append]
  rfl

theorem copies_one (text : List Char) : copies 1 text = text := by
  simp [copies]

mutual

/-- A step at a greater depth has the same lines, each so much deeper. -/
theorem Step.outline_add (n depth : Nat) : (step : Step) → Step.outline (n + depth) step =
    (Step.outline depth step).map fun line => (n + line.1, line.2)
  | .line text => by simp [Step.outline]
  | .block opening closing body => by
      have hbody := Step.outlineAll_add n (depth + 1) body
      simp [Step.outline, Nat.add_assoc, hbody]

/-- Steps at a greater depth have the same lines, each so much deeper. -/
theorem Step.outlineAll_add (n depth : Nat) : (steps : List Step) →
    Step.outlineAll (n + depth) steps =
      (Step.outlineAll depth steps).map fun line => (n + line.1, line.2)
  | [] => by simp [Step.outlineAll]
  | first :: rest => by
      have hfirst := Step.outline_add n depth first
      have hrest := Step.outlineAll_add n depth rest
      simp [Step.outlineAll, hfirst, hrest]

end

namespace Member

theorem frame_eq_map (language : Language) (descriptor : Descriptor) (depth : Nat) :
    frame language descriptor depth =
      (frame language descriptor 0).map fun line => (depth + line.1, line.2) := by
  rw [← outlineAll_steps, ← outlineAll_steps]
  exact Step.outlineAll_add depth 0 (steps language descriptor)

/-- A line that is not empty is written behind the indentation of its depth. -/
theorem writtenLine_add (unit : List Char) (n : Nat) (line : Nat × String)
    (h : isSolidLine line.2.toList = true) :
    writtenLine unit (n + line.1, line.2) = copies n unit ++ writtenLine unit line := by
  have hne : ¬ line.2.toList.isEmpty = true := by
    intro hempty
    simp [isSolidLine, hempty] at h
  simp only [writtenLine, indentLine, if_neg hne, copies_add, List.append_assoc]

/-- The last character of a line that is not empty is one of its text, not of its indentation. -/
theorem getLast?_writtenLine (unit : List Char) (line : Nat × String)
    (h : isSolidLine line.2.toList = true) :
    (writtenLine unit line).getLast? = line.2.toList.getLast? := by
  have hne : line.2.toList ≠ [] := by
    intro hempty
    simp [isSolidLine, hempty] at h
  rw [writtenLine, indentLine, if_neg (by simpa using hne), List.getLast?_append]
  simp [List.getLast?_eq_some_getLast hne]

theorem staysLine_writtenLine (unit : List Char) (line : Nat × String) (hunit : '\n' ∉ unit)
    (h : isSolidLine line.2.toList = true) : StaysLine (writtenLine unit line) := by
  constructor
  · exact (writtenLine_ne_nil_and_not_mem unit line hunit h).2
  · rw [getLast?_writtenLine unit line h]
    simp only [isSolidLine, Bool.and_eq_true, List.all_eq_true] at h
    exact (staysLine_of_not_isLineEnd _ fun c hc => by simpa using h.2 c hc).not_return

section Layout

variable {language : Language} {descriptor : Descriptor} (indent : String)

/-- The lines of a valid descriptor's member are read back from its text. -/
theorem lines_layOut (depth : Nat) (hvalid : descriptor.validate language = .ok ())
    (hindent : '\n' ∉ indent.toList) :
    lines (layOut { language, indent, baseIndent := depth } descriptor).toList =
      (frame language descriptor depth).map (writtenLine indent.toList) := by
  have hsolid := isSolidLine_frame language descriptor depth () hvalid
  obtain ⟨first, rest, hframe⟩ := List.exists_cons_of_ne_nil
    (frame_ne_nil language descriptor depth)
  rw [layOut_eq_frame]
  simp only [hframe, List.map_cons] at hsolid ⊢
  apply lines_joinWith
  rw [← List.map_cons, List.forall_mem_map]
  intro line hline
  exact ⟨(writtenLine_ne_nil_and_not_mem _ line hindent (hsolid line hline)).1,
    staysLine_writtenLine _ line hindent (hsolid line hline)⟩

/-- A member whose lines are indented afterwards has the lines of the member at the depth. -/
theorem reindent_layOut (depth : Nat) (newline : List Char)
    (hvalid : descriptor.validate language = .ok ()) (hindent : '\n' ∉ indent.toList) :
    Edit.reindent (layOut { language, indent } descriptor).toList (copies depth indent.toList)
        newline =
      joinWith newline ((frame language descriptor depth).map (writtenLine indent.toList)) := by
  have hsolid := isSolidLine_frame language descriptor 0 () hvalid
  rw [Edit.reindent, lines_layOut indent 0 hvalid hindent, frame_eq_map language descriptor depth,
    List.map_map, List.map_map]
  congr 1
  apply List.map_congr_left
  intro line hline
  have hne := (writtenLine_ne_nil_and_not_mem _ line hindent (hsolid line hline)).1
  simp only [Function.comp_apply, writtenLine_add _ depth line (hsolid line hline)]
  rw [if_neg (by simpa using hne)]

/-- Every line of a member at a depth starts with the indentation of the depth. -/
theorem prefix_of_mem_lines_layOut (depth : Nat) (hvalid : descriptor.validate language = .ok ())
    (hindent : '\n' ∉ indent.toList) (line : List Char)
    (hline : line ∈ lines (layOut { language, indent, baseIndent := depth } descriptor).toList) :
    copies depth indent.toList <+: line := by
  have hsolid := isSolidLine_frame language descriptor 0 () hvalid
  rw [lines_layOut indent depth hvalid hindent, frame_eq_map, List.map_map] at hline
  obtain ⟨listed, hlisted, rfl⟩ := List.mem_map.1 hline
  rw [Function.comp_apply, writtenLine_add _ depth listed (hsolid listed hlisted)]
  exact List.prefix_append _ _

end Layout

end Member

namespace Edit

/-- A member with the line ends that a text has. -/
def endedLike (text member : List Char) : List Char :=
  if hasCarriageReturnLineFeed text then withReturns member else member

/-- Lines put together with the line ends of a text. -/
theorem joinWith_lineEnd (text : List Char) (parts : List (List Char))
    (h : ∀ line ∈ parts, '\n' ∉ line) :
    joinWith (lineEnd text) parts = endedLike text (joinWith ['\n'] parts) := by
  unfold lineEnd endedLike
  split
  · exact (withReturns_joinWith parts h).symm
  · rfl

section OwnLine

variable {before unit : List Char}

theorem StartsLineBehind.lastLine_eq (h : StartsLineBehind before) : lastLine before = [] := by
  rcases List.eq_nil_or_concat before with rfl | ⟨front, c, rfl⟩
  · rfl
  · rw [List.concat_eq_append] at h ⊢
    obtain rfl : c = '\n' := h c (by simp)
    exact lastLine_behind_feed front [] (by simp)

theorem isIndentChar_of_mem_copies (level : Nat) (hunit : ∀ c ∈ unit, isIndentChar c = true)
    (c : Char) (h : c ∈ copies level unit) : isIndentChar c = true :=
  hunit c (mem_of_mem_copies level unit c h)

/-- On a line with nothing but an indentation in front of the place, the line is the indentation. -/
theorem lastLine_append_copies (level : Nat) (hbefore : StartsLineBehind before)
    (hunit : ∀ c ∈ unit, isIndentChar c = true) :
    lastLine (before ++ copies level unit) = copies level unit := by
  have hfeed : '\n' ∉ copies level unit := fun hmem =>
    ne_lineFeed_of_isIndentChar _ (isIndentChar_of_mem_copies level hunit _ hmem) rfl
  rw [lastLine_append_of_not_mem before _ hfeed, hbefore.lastLine_eq, List.nil_append]

theorem beforeLastLine_append_copies (level : Nat) (hbefore : StartsLineBehind before)
    (hunit : ∀ c ∈ unit, isIndentChar c = true) :
    beforeLastLine (before ++ copies level unit) = before := by
  have hparts := beforeLastLine_append_lastLine (before ++ copies level unit)
  rw [lastLine_append_copies level hbefore hunit] at hparts
  exact List.append_cancel_right hparts

theorem onOwnLine_append_copies (level : Nat) (hbefore : StartsLineBehind before)
    (hunit : ∀ c ∈ unit, isIndentChar c = true) :
    onOwnLine (before ++ copies level unit) = true := by
  rw [onOwnLine, lastLine_append_copies level hbefore hunit, allBlank, List.all_eq_true]
  intro c hc
  exact isBlank_of_isIndentChar c (isIndentChar_of_mem_copies level hunit c hc)

/-- A member goes in front of a brace on a line of its own, one unit deeper than the brace. -/
theorem insertBetween_own_line (level : Nat) (after member newline : List Char)
    (hbefore : StartsLineBehind before) (hunit : ∀ c ∈ unit, isIndentChar c = true) :
    insertBetween (before ++ copies level unit) ('\x7d' :: after) member unit newline =
      before ++ ((if needsGap before then newline else []) ++
        (reindent member (copies (level + 1) unit) newline ++
          (newline ++ (copies level unit ++ '\x7d' :: after)))) := by
  have hown := onOwnLine_append_copies level hbefore hunit
  have hline := lastLine_append_copies level hbefore hunit
  have hkept : keptFront (before ++ copies level unit) = before := by
    rw [keptFront, if_pos hown, beforeLastLine_append_copies level hbefore hunit]
  have hindent : indentation (copies level unit) = copies level unit :=
    List.takeWhile_eq_self_iff.2 (isIndentChar_of_mem_copies level hunit)
  rw [insertBetween_closing, hkept, addedText_of_onOwnLine _ _ _ _ hown, hline, hindent, gapEnd,
    hkept, ownFront, if_pos hown, hline, copies_add, copies_one]
  simp only [List.append_assoc]

end OwnLine

end Edit

/-- A valid descriptor's member at a depth is the member without indentation, each line of which is
indented by so many units, and all its lines start with them. Inserted in front of a brace on a line
of its own, the member without indentation becomes the member one level deeper than the brace, with
the line ends that the text has. -/
theorem generate_at_depth (language : Language) (descriptor : Descriptor) (indent : String)
    (level : Nat) (hvalid : descriptor.validate language = .ok ())
    (hindent : '\n' ∉ indent.toList) :
    ∃ flat deep deeper : Member,
      descriptor.generate { language, indent, baseIndent := 0 } = .ok flat ∧
      descriptor.generate { language, indent, baseIndent := level } = .ok deep ∧
      descriptor.generate { language, indent, baseIndent := level + 1 } = .ok deeper ∧
      deep.text.toList =
        Edit.reindent flat.text.toList (copies level indent.toList) ['\n'] ∧
      (∀ line ∈ lines deep.text.toList, copies level indent.toList <+: line) ∧
      ∀ (text : String) (before after : List Char),
        (∀ c ∈ indent.toList, isIndentChar c = true) → Edit.StartsLineBehind before →
        text.toList = before ++ copies level indent.toList ++ '\x7d' :: after →
          Edit.insert text (byteLength (before ++ copies level indent.toList)) flat.text indent =
            .ok (String.ofList (before ++
              ((if Edit.needsGap before then Edit.lineEnd text.toList else []) ++
                (Edit.endedLike text.toList deeper.text.toList ++ (Edit.lineEnd text.toList ++
                  (copies level indent.toList ++ '\x7d' :: after)))))) := by
  have hfeed (depth : Nat) : ∀ line ∈ (Member.frame language descriptor depth).map
      (writtenLine indent.toList), '\n' ∉ line := by
    rw [← Member.lines_layOut indent depth hvalid hindent]
    exact not_mem_lines _
  refine ⟨_, _, _, generate_of_validate _ descriptor () hvalid,
    generate_of_validate _ descriptor () hvalid, generate_of_validate _ descriptor () hvalid,
    ?_, ?_, ?_⟩
  · rw [Member.reindent_layOut indent level _ hvalid hindent, Member.layOut_eq_frame]
  · exact Member.prefix_of_mem_lines_layOut indent level hvalid hindent
  · intro text before after hunit hbefore htext
    rw [Edit.insert_of_append text _ _ indent _ _ htext rfl,
      Edit.insertBetween_own_line level after _ _ hbefore hunit,
      Member.reindent_layOut indent (level + 1) _ hvalid hindent,
      Edit.joinWith_lineEnd _ _ (hfeed (level + 1)), Member.layOut_eq_frame]

/-- A member with one field goes in front of a brace at the first level of a text with carriage
returns, the unit being a tab. -/
theorem generate_at_depth_tab :
    (Descriptor.validate { typeName := "B", fields := [⟨"@int", "int"⟩] } .csharp = .ok () ∧
      '\n' ∉ "\t".toList) ∧
    ∃ flat deeper : Member,
      Descriptor.generate { typeName := "B", fields := [⟨"@int", "int"⟩] }
        { language := .csharp, indent := "\t", baseIndent := 0 } = .ok flat ∧
      Descriptor.generate { typeName := "B", fields := [⟨"@int", "int"⟩] }
        { language := .csharp, indent := "\t", baseIndent := 2 } = .ok deeper ∧
      Edit.insert "class A \x7b\r\n\tclass B \x7b\r\n\t\x7d \x7d" 24 flat.text "\t" =
        .ok (String.ofList ("class A \x7b\r\n\tclass B \x7b\r\n".toList ++
          (withReturns deeper.text.toList ++ "\r\n\t\x7d \x7d".toList))) := by
  have hvalid : Descriptor.validate { typeName := "B", fields := [⟨"@int", "int"⟩] } .csharp =
      .ok () := by
    decide +kernel
  refine ⟨⟨hvalid, by decide⟩, ?_⟩
  obtain ⟨flat, -, deeper, hflat, -, hdeeper, -, -, hinsert⟩ :=
    generate_at_depth .csharp _ "\t" 1 hvalid (by decide)
  refine ⟨flat, deeper, hflat, hdeeper, ?_⟩
  exact hinsert "class A \x7b\r\n\tclass B \x7b\r\n\t\x7d \x7d"
    "class A \x7b\r\n\tclass B \x7b\r\n".toList " \x7d".toList (by decide)
    (by simp [Edit.StartsLineBehind]) (by decide)

end RecordText
