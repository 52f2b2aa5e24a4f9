import RecordText.Proofs.MemberLines

/-!
# The frame of a member

In every language a member is a fixed front, one line for each field in
declaration order, and a fixed end. Only the front of the Rust member names the
described type, and only its end tells a type without fields from others. The
declared types of the fields do not appear.
-/

namespace RecordText

open RecordText.Text

namespace Member

/-- The line that prints one field. -/
def entryLine : Language → String → String
  | .csharp => csharpEntry
  | .java => javaEntry
  | .rust => rustEntry

/-- How many levels below the member the lines stand that print fields. -/
def entryLevel : Language → Nat
  | .csharp => 1
  | .java => 1
  | .rust => 2

/-- The lines in front of those that print fields, each with its depth. -/
def frontLines (language : Language) (typeName : String) (depth : Nat) : List (Nat × String) :=
  match language with
  | .csharp =>
    [(depth, "public override string ToString()"), (depth, "\x7b"),
      (depth + 1, "var result = new System.Text.StringBuilder();")]
  | .java =>
    [(depth, "@Override"), (depth, "public String toString() \x7b"),
      (depth + 1, "StringBuilder result = new StringBuilder();")]
  | .rust =>
    [(depth, "impl ::std::fmt::Display for " ++ typeName ++ " \x7b"),
      (depth + 1, "fn fmt(&self, f: &mut ::std::fmt::Formatter<'_>) -> ::std::fmt::Result \x7b")]

/-- The lines behind those that print fields, each with its depth. -/
def endLines (language : Language) (noFields : Bool) (depth : Nat) : List (Nat × String) :=
  match language with
  | .csharp => [(depth + 1, "return result.ToString();"), (depth, "\x7d")]
  | .java => [(depth + 1, "return result.toString();"), (depth, "\x7d")]
  | .rust =>
    [(depth + 2, if noFields then "f.write_str(\"\")" else "Ok(())"), (depth + 1, "\x7d"),
      (depth, "\x7d")]

/-- The lines that print fields, each with its depth. -/
def entryLines (language : Language) (names : List String) (depth : Nat) : List (Nat × String) :=
  names.map fun name => (depth + entryLevel language, entryLine language name)

/-- All lines of a descriptor's member, each with its depth. -/
def frame (language : Language) (descriptor : Descriptor) (depth : Nat) : List (Nat × String) :=
  frontLines language descriptor.typeName depth ++
    (entryLines language descriptor.fieldNames depth ++
      endLines language descriptor.fieldNames.isEmpty depth)

end Member

theorem Step.outlineAll_append (depth : Nat) (front back : List Step) :
    Step.outlineAll depth (front ++ back) =
      Step.outlineAll depth front ++ Step.outlineAll depth back := by
  induction front with
  | nil => rfl
  | cons first rest ih => simp [Step.outlineAll, ih]

/-- The lines of steps that write one line for each name. -/
theorem Step.outlineAll_entries (depth : Nat) (names : List String) (entry : String → String) :
    Step.outlineAll depth (names.map fun name => .line (entry name)) =
      names.map fun name => (depth, entry name) := by
  have hlines := Step.outlineAll_lines depth (names.map entry)
  rwa [List.map_map, List.map_map] at hlines

theorem Descriptor.isEmpty_fieldNames (descriptor : Descriptor) :
    descriptor.fieldNames.isEmpty = descriptor.fields.isEmpty := by
  rw [Descriptor.fieldNames, List.isEmpty_map]

/-- The steps of a member list the lines of its frame. -/
theorem Member.outlineAll_steps (language : Language) (descriptor : Descriptor) (depth : Nat) :
    Step.outlineAll depth (Member.steps language descriptor) =
      Member.frame language descriptor depth := by
  cases language with
  | csharp =>
      simp [Member.steps, Member.csharpSteps, Step.outlineAll, Step.outline,
        Step.outlineAll_append, Step.outlineAll_entries, Member.frame, Member.frontLines,
        Member.entryLines, Member.endLines, Member.entryLine, Member.entryLevel]
  | java =>
      simp [Member.steps, Member.javaSteps, Step.outlineAll, Step.outline,
        Step.outlineAll_append, Step.outlineAll_entries, Member.frame, Member.frontLines,
        Member.entryLines, Member.endLines, Member.entryLine, Member.entryLevel]
  | rust =>
      have hbody : Step.outlineAll (depth + 2) (Member.rustBody descriptor) =
          Member.entryLines .rust descriptor.fieldNames depth ++
            [(depth + 2, if descriptor.fieldNames.isEmpty then "f.write_str(\"\")"
              else "Ok(())")] := by
        rw [Member.rustBody, Descriptor.isEmpty_fieldNames]
        split
        · rename_i hempty
          have hnames : descriptor.fieldNames = [] := by
            rw [← List.isEmpty_iff, Descriptor.isEmpty_fieldNames, hempty]
          simp [Step.outlineAll, Step.outline, Member.entryLines, hnames]
        · simp [Step.outlineAll, Step.outline, Step.outlineAll_append, Step.outlineAll_entries,
            Member.entryLines, Member.entryLine, Member.entryLevel]
      simp [Member.steps, Member.rustSteps, Step.outlineAll, Step.outline, hbody, Member.frame,
        Member.frontLines, Member.endLines]

theorem Member.frame_ne_nil (language : Language) (descriptor : Descriptor) (depth : Nat) :
    Member.frame language descriptor depth ≠ [] := by
  cases language <;> exact List.cons_ne_nil _ _

/-- The member of a descriptor is laid out as the lines of its frame. -/
theorem Member.layOut_eq_frame (style : Style) (descriptor : Descriptor) :
    (Member.layOut style descriptor).toList = joinWith ['\n']
      ((Member.frame style.language descriptor style.baseIndent).map
        (writtenLine style.indent.toList)) := by
  rw [layOut_eq_joinWith, Member.outlineAll_steps]

/-- A valid descriptor has a member, which is laid out from it. -/
theorem generate_of_validate (style : Style) (descriptor : Descriptor) (u : Unit)
    (h : descriptor.validate style.language = .ok u) :
    descriptor.generate style =
      .ok { language := style.language, text := Member.layOut style descriptor } := by
  rw [Descriptor.generate, h]

end RecordText
