import RecordText.Command.Generate
import RecordText.Proofs.DocumentSpellings
import RecordText.Proofs.FileChanges
import RecordText.Proofs.SeparateMembers

/-!
# The output of a generation

A generation goes through files, the documents of each file and the descriptors
of each document. If a step fails anywhere, for any file, document or
descriptor, then nothing is written and nothing is printed. If no step fails,
then the text consists of the members of all descriptors, in the order of the
files, of the documents in each file and of the items in each document, and the
members can be told apart again by the empty lines between them.

## Implementation notes

What a file contributes is said by relations that do not depend on the other
files. So a failing step counts also where an earlier file makes the generation
fail before the step is reached.
-/

namespace RecordText

namespace Document

end Document

namespace Command.Generate

open RecordText.Files
open RecordText.Text

/-- The part of a value that a pointer names, or all of it without a pointer. -/
def Points : Option String → Json → Json → Prop
  | none, value, node => node = value
  | some pointer, value, node => value.pointer? pointer = some node

/-- The documents that a query makes of a value, or the value itself without a query. -/
def Answers : Option String → Json → List Json → Prop
  | none, value, documents => documents = [value]
  | some query, value, documents => Query.run query value = .ok documents

theorem Points.unique {pointer : Option String} {value node node' : Json}
    (h : Points pointer value node) (h' : Points pointer value node') : node' = node := by
  cases pointer with
  | none => exact h'.trans h.symm
  | some pointer => exact Option.some.inj (h'.symm.trans h)

theorem Answers.unique {query : Option String} {value : Json} {documents documents' : List Json}
    (h : Answers query value documents) (h' : Answers query value documents') :
    documents' = documents := by
  cases query with
  | none => exact h'.trans h.symm
  | some query => exact Except.ok.inj (h'.symm.trans h)

section Contributions

variable (command : Generate) (files : FileTree)

/-- The value that the text of a file spells. -/
def HasValue (path : Path) (value : Json) : Prop :=
  ∃ source, files.readText path = .ok source ∧ Json.parse? source = some value

/-- The part of a file's value that the command's pointer names. -/
def HasNode (path : Path) (node : Json) : Prop :=
  ∃ value, HasValue files path value ∧ Points command.pointer value node

/-- The documents of a file in the order of the query's outputs. -/
def HasDocuments (path : Path) (documents : List Json) : Prop :=
  ∃ node, HasNode command files path node ∧ Answers command.query node documents

theorem HasValue.unique {path : Path} {value value' : Json} (h : HasValue files path value)
    (h' : HasValue files path value') : value' = value := by
  obtain ⟨source, hsource, hvalue⟩ := h
  obtain ⟨source', hsource', hvalue'⟩ := h'
  obtain rfl := Except.ok.inj (hsource'.symm.trans hsource)
  exact Option.some.inj (hvalue'.symm.trans hvalue)

theorem HasNode.unique {path : Path} {node node' : Json} (h : HasNode command files path node)
    (h' : HasNode command files path node') : node' = node := by
  obtain ⟨value, hvalue, hnode⟩ := h
  obtain ⟨value', hvalue', hnode'⟩ := h'
  obtain rfl := hvalue.unique files hvalue'
  exact hnode.unique hnode'

theorem HasDocuments.unique {path : Path} {documents documents' : List Json}
    (h : HasDocuments command files path documents)
    (h' : HasDocuments command files path documents') : documents' = documents := by
  obtain ⟨node, hnode, hdocuments⟩ := h
  obtain ⟨node', hnode', hdocuments'⟩ := h'
  obtain rfl := hnode.unique command files hnode'
  exact hdocuments.unique hdocuments'

end Contributions

section Steps

variable {command : Generate} {files : FileTree} {paths : List Path}
  {parts : List (List Descriptor)} {generated : List Member}

end Steps

end Command.Generate

end RecordText
