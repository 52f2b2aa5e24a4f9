import RecordText.Edit.Insertion
import RecordText.Member
import RecordText.Source.Outline

/-!
# Completion of classes

Every class of a C# text that does not override `ToString` gets the override
that its properties ask for, in front of its closing brace. Classes whose body
is not closed and classes that give no valid descriptor are skipped with a
reason.

## Implementation notes

The insertions are carried out from the last offset to the first, so that the
offsets of those still to come stay valid.
-/

namespace RecordText.Edit

open RecordText.Source

/-- How a text is completed: the indentation unit, and whether only the first class that can be
completed is. -/
structure CompletionStyle where
  indent : String := "    "
  firstOnly : Bool := false
  deriving DecidableEq, Repr

/-- A completed text: the names of the completed classes in the order of their closing braces, and
the skipped ones with the reason. -/
structure Completion where
  text : String
  completed : List String
  skipped : List (String × String)
  deriving DecidableEq, Repr

/-- Whether any class was completed. -/
def Completion.changed (completion : Completion) : Bool :=
  !completion.completed.isEmpty

/-- A member to be inserted for a class. -/
structure Insertion where
  offset : Nat
  member : Member
  className : String
  deriving DecidableEq, Repr

/-- The reason for skipping a class whose body is not closed. -/
def unclosedReason : String := "unterminated class body"

/-- The insertion that completes a class, or the reason to skip the class. -/
def planClass (indent : String) (found : ClassOutline) : Except String Insertion :=
  match found.bodyClose with
  | none => .error unclosedReason
  | some offset =>
    match found.descriptor.generate { language := .csharp, indent } with
    | .error invalid => .error invalid.message
    | .ok member => .ok { offset, member, className := found.name }

/-- What is to be done for some classes: insertions, and classes to skip with the reason. -/
structure Plan where
  insertions : List Insertion := []
  skipped : List (String × String) := []
  deriving DecidableEq, Repr

/-- Plan the completion of classes in order; with `firstOnly` nothing is planned behind the first
insertion. -/
def plan (style : CompletionStyle) : List ClassOutline → Plan
  | [] => {}
  | found :: rest =>
    match planClass style.indent found with
    | .ok insertion =>
      if style.firstOnly then { insertions := [insertion] }
      else
        let later := plan style rest
        { later with insertions := insertion :: later.insertions }
    | .error reason =>
      let later := plan style rest
      { later with skipped := (found.name, reason) :: later.skipped }

/-- Insertions from the last offset to the first. -/
def descending (insertions : List Insertion) : List Insertion :=
  insertions.mergeSort fun a b => b.offset ≤ a.offset

/-- Carry out insertions in order. -/
def applyInsertions (unit text : List Char) : List Insertion → Except InsertionError (List Char)
  | [] => .ok text
  | insertion :: rest =>
    match insertChars text insertion.offset insertion.member.text.toList unit with
    | .error error => .error error
    | .ok text => applyInsertions unit text rest

/-- Complete the classes of a text. -/
def complete (text : String) (style : CompletionStyle) : Except InsertionError Completion :=
  let planned := plan style (lackingToString text)
  let ordered := descending planned.insertions
  match applyInsertions style.indent.toList text.toList ordered with
  | .error error => .error error
  | .ok result =>
    .ok { text := String.ofList result
          completed := (ordered.map Insertion.className).reverse
          skipped := planned.skipped }

end RecordText.Edit
