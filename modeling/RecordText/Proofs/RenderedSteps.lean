import RecordText.Proofs.IndentedMembers

/-!
# What steps render

Steps are rendered as lines: those of the whole tree in order, each behind the
indentation of the base depth and of its own level below it, and an empty line
without any. However deep the blocks go, the emitter comes back to the depth
that it started from, so steps that follow are rendered as if they stood alone,
on the next line.

An emitter ends every line, the finished text lacks the end of the last one and
nothing else. A text whose last lines are empty keeps their ends.

## Main statements

* `Emitter.finish_steps`: the finished text, said without an emitter.
* `Emitter.finish_append`: steps that follow others start on a new line.
* `Emitter.written_eq_finish`: finishing drops one line feed.
-/

namespace RecordText

open RecordText.Text

/-- An emitter that has written nothing, at a base depth. -/
def Emitter.fresh (unit : String) (depth : Nat) : Emitter :=
  { unit := unit.toList, depth }

/-- The lines of steps with their indentation. -/
def Step.renderedLines (unit : String) (depth : Nat) (steps : List Step) : List String :=
  (Step.outlineAll 0 steps).map fun line =>
    if line.2 = "" then "" else String.join (List.replicate (depth + line.1) unit) ++ line.2

theorem Step.outlineAll_ne_nil (depth : Nat) (steps : List Step) (h : steps ≠ []) :
    Step.outlineAll depth steps ≠ [] := by
  obtain ⟨first, rest, rfl⟩ := List.exists_cons_of_ne_nil h
  cases first <;> simp [Step.outlineAll, Step.outline]

theorem Step.renderedLines_ne_nil (unit : String) (depth : Nat) (steps : List Step)
    (h : steps ≠ []) : Step.renderedLines unit depth steps ≠ [] := by
  rw [Step.renderedLines, Ne, List.map_eq_nil_iff]
  exact Step.outlineAll_ne_nil 0 steps h

theorem Step.renderedLines_append (unit : String) (depth : Nat) (front back : List Step) :
    Step.renderedLines unit depth (front ++ back) =
      Step.renderedLines unit depth front ++ Step.renderedLines unit depth back := by
  rw [Step.renderedLines, Step.outlineAll_append, List.map_append]
  rfl

/-- Rendered lines are the lines that an emitter writes. -/
theorem Step.map_toList_renderedLines (unit : String) (depth : Nat) (steps : List Step) :
    (Step.renderedLines unit depth steps).map String.toList =
      (Step.outlineAll depth steps).map (writtenLine unit.toList) := by
  have hlevels : Step.outlineAll depth steps =
      (Step.outlineAll 0 steps).map fun line => (depth + line.1, line.2) :=
    Step.outlineAll_add depth 0 steps
  rw [Step.renderedLines, hlevels, List.map_map, List.map_map]
  apply List.map_congr_left
  intro line _
  simp only [Function.comp_apply, writtenLine, indentLine, List.isEmpty_iff,
    String.toList_eq_nil_iff]
  split
  · rfl
  · rw [String.toList_append, String.toList_join, copies, ← List.map_replicate, List.flatMap_def]

namespace Emitter

theorem steps_append (emitter : Emitter) (front back : List Step) :
    emitter.steps (front ++ back) = (emitter.steps front).steps back := by
  induction front generalizing emitter with
  | nil => rfl
  | cons first rest ih => exact ih (emitter.step first)

section Fresh

variable (unit : String) (depth : Nat) (steps : List Step)

/-- The finished text of steps is their rendered lines, one below the other. -/
theorem finish_steps :
    ((fresh unit depth).steps steps).finish =
      "\n".intercalate (Step.renderedLines unit depth steps) := by
  have hfeed : "\n".toList = ['\n'] := rfl
  rw [finish, fresh, finishChars_steps, ← Step.map_toList_renderedLines, joinWith_eq_intercalate,
    ← hfeed, ← String.toList_intercalate, String.ofList_toList]

/-- Steps behind others start on a new line, where they are rendered as if they stood alone. -/
theorem finish_append (more : List Step) (hsteps : steps ≠ []) (hmore : more ≠ []) :
    (((fresh unit depth).steps steps).steps more).finish =
      ((fresh unit depth).steps steps).finish ++ "\n" ++ ((fresh unit depth).steps more).finish := by
  rw [← steps_append, finish_steps, finish_steps, finish_steps, Step.renderedLines_append]
  exact String.intercalate_append_of_ne_nil (Step.renderedLines_ne_nil _ _ _ hsteps)
    (Step.renderedLines_ne_nil _ _ _ hmore)

/-- Finishing drops the last line feed. -/
theorem written_eq_finish (h : steps ≠ []) :
    String.ofList ((fresh unit depth).steps steps).written =
      ((fresh unit depth).steps steps).finish ++ "\n" := by
  have hwritten : ((fresh unit depth).steps steps).written =
      writtenLines unit.toList (Step.outlineAll depth steps) := by
    rw [steps_eq]
    rfl
  rw [hwritten, writtenLines_eq_joinWith _ _ (Step.outlineAll_ne_nil depth steps h), finish,
    fresh, finishChars_steps, String.ofList_append]

/-- Empty lines at the end are kept, less the end of the last one. -/
theorem finish_append_empty (n : Nat) (h : steps ≠ []) :
    ((fresh unit depth).steps (steps ++ List.replicate n (.line ""))).finish =
      ((fresh unit depth).steps steps).finish ++ String.ofList (List.replicate n '\n') := by
  induction n with
  | zero => simp
  | succ n ih =>
      have hempty : ((fresh unit depth).steps [.line ""]).finish = "" := by
        rw [finish_steps]
        rfl
      rw [List.replicate_succ', ← List.append_assoc, steps_append,
        finish_append _ _ _ _ (List.append_ne_nil_of_left_ne_nil h _) (List.cons_ne_nil _ _), ih,
        hempty, String.append_empty, List.replicate_succ', String.ofList_append, String.append_assoc]

end Fresh

end Emitter

/-- Steps leave the emitter at the depth where they found it, and their finished text is the lines
of the tree in order, each with as many units as its level lies below the start, the base depth
added, and an empty line with none. Steps that follow others are rendered on the next line as if
they stood alone. What is finished lacks one line feed of what was written, also where the last
lines are empty. -/
theorem steps_render_lines (unit : String) (depth : Nat) (steps : List Step) :
    ((Emitter.fresh unit depth).steps steps).depth = depth ∧
    ((Emitter.fresh unit depth).steps steps).finish =
      "\n".intercalate ((Step.outlineAll 0 steps).map fun line =>
        if line.2 = "" then ""
        else String.join (List.replicate (depth + line.1) unit) ++ line.2) ∧
    (∀ more, steps ≠ [] → more ≠ [] →
      (((Emitter.fresh unit depth).steps steps).steps more).finish =
        ((Emitter.fresh unit depth).steps steps).finish ++ "\n" ++
          ((Emitter.fresh unit depth).steps more).finish) ∧
    (steps ≠ [] → String.ofList ((Emitter.fresh unit depth).steps steps).written =
      ((Emitter.fresh unit depth).steps steps).finish ++ "\n") ∧
    ∀ n, steps ≠ [] →
      ((Emitter.fresh unit depth).steps (steps ++ List.replicate n (.line ""))).finish =
        ((Emitter.fresh unit depth).steps steps).finish ++
          String.ofList (List.replicate n '\n') := by
  have hdepth : ((Emitter.fresh unit depth).steps steps).depth = depth := by
    rw [Emitter.steps_eq]
    rfl
  exact ⟨hdepth, Emitter.finish_steps unit depth steps, Emitter.finish_append unit depth steps,
    Emitter.written_eq_finish unit depth steps, Emitter.finish_append_empty unit depth steps⟩

/-- A block with an empty opening line around an empty block, with an empty line behind both. -/
def stepsWithEmptyLines : List Step :=
  [.block "" "\x7d" [.block "a \x7b" "" []], .line ""]

theorem steps_render_lines_emptyLines :
    (stepsWithEmptyLines ≠ [] ∧ [Step.line "b"] ≠ []) ∧
    (((Emitter.fresh "\t" 1).steps stepsWithEmptyLines).steps [.line "b"]).finish =
      "\n\t\ta \x7b\n\n\t\x7d\n\n\tb" ∧
    ((Emitter.fresh "\t" 1).steps (stepsWithEmptyLines ++ List.replicate 1 (.line ""))).finish =
      "\n\t\ta \x7b\n\n\t\x7d\n\n" := by
  have hsteps : stepsWithEmptyLines ≠ [] := List.cons_ne_nil _ _
  have hmore : [Step.line "b"] ≠ [] := List.cons_ne_nil _ _
  obtain ⟨-, hfinish, hjoin, -, hempty⟩ := steps_render_lines "\t" 1 stepsWithEmptyLines
  have hnext := hjoin _ hsteps hmore
  have hlast := hempty 1 hsteps
  rw [hfinish] at hnext hlast
  exact ⟨⟨hsteps, hmore⟩, hnext.trans (by decide), hlast.trans (by decide)⟩

end RecordText
