import RecordText.Command.Generate
import RecordText.Proofs.JsonTexts
import RecordText.Proofs.Outcomes

/-!
# The identity query

The query of a single point gives its input and nothing else. Since an output is
written as text and read back, this is a fact about JSON texts: the input has to
be one that its text brings back. Whatever is read from a file is, numbers that
are no integers apart, so a generation with this query does the same as one
without a query.
-/

namespace RecordText

namespace Query

namespace Value

/-- A number keeps its text, whether or not it fits the machine's integers. -/
theorem chars_ofNumber (number : Json.Number) : (ofNumber number).chars = number.chars := by
  cases number with
  | int n =>
      rw [ofNumber]
      split_ifs
      · rfl
      · exact String.toList_ofList
  | float x => exact String.toList_ofList

mutual

/-- A value that a query works on has the text of the JSON value that it was made of. -/
theorem chars_ofJson (value : Json) : (ofJson value).chars = value.chars := by
  cases value with
  | null => rfl
  | bool b => cases b <;> rfl
  | number n => exact chars_ofNumber n
  | string s => rfl
  | array items => rw [ofJson, chars, Json.chars, itemsChars_ofItems]
  | object members => rw [ofJson, chars, Json.chars, membersChars_ofMembers]

theorem itemsChars_ofItems (items : List Json) :
    itemsChars (ofItems items) = Json.itemsChars items := by
  match items with
  | [] => rfl
  | [item] => exact chars_ofJson item
  | item :: next :: rest =>
    have hrest := itemsChars_ofItems (next :: rest)
    rw [ofItems] at hrest
    rw [ofItems, ofItems, itemsChars, hrest, chars_ofJson, Json.itemsChars]

theorem membersChars_ofMembers (members : List (String × Json)) :
    membersChars (ofMembers members) = Json.membersChars members := by
  match members with
  | [] => rfl
  | [(key, value)] => rw [ofMembers, ofMembers, membersChars, Json.membersChars, chars_ofJson]
  | (key, value) :: next :: rest =>
    have hrest := membersChars_ofMembers (next :: rest)
    rw [ofMembers] at hrest
    rw [ofMembers, ofMembers, membersChars, hrest, chars_ofJson, Json.membersChars]

end

end Value

/-- The identity gives its input back if the text of the input can be read back. -/
theorem run_identity {value : Json} (h : value.IsReadable Json.depthLimit) :
    run "." value = .ok [value] := by
  have hterm : Term.parse? "." = some .identity := by rfl
  have houtputs : Term.outputs runDepth .identity (Value.ofJson value) =
      .value (Value.ofJson value) := rfl
  have hread : Json.parseChars? (Value.ofJson value).chars = some value := by
    rw [Value.chars_ofJson, Json.parseChars?_chars h]
  rw [run, hterm]
  change Term.run .identity value = _
  rw [Term.run, houtputs, Outputs.value, Outputs.one, readBackOnto, hread]
  rfl

end Query

namespace Json

section Parts

variable (holds : Json → Prop)
  (harray : ∀ items, holds (.array items) → ∀ item ∈ items, holds item)
  (hobject : ∀ members, holds (.object members) → ∀ member ∈ members, holds member.2)

include harray hobject

/-- A property that goes from arrays and objects to their parts goes to every node that keys lead
to. -/
theorem holds_of_descend? {value node : Json} {keys : List (List Char)} (hvalue : holds value)
    (h : value.descend? keys = some node) : holds node := by
  induction keys generalizing value with
  | nil =>
      cases h
      exact hvalue
  | cons key keys ih =>
      obtain ⟨child, hchild, h⟩ := Option.bind_eq_some_iff.1 h
      refine ih ?_ h
      cases value with
      | array items =>
          obtain ⟨position, -, hitem⟩ := Option.bind_eq_some_iff.1 hchild
          exact harray items hvalue child (List.mem_of_getElem? hitem)
      | object members => exact hobject members hvalue _ (mem_of_getKey? hchild)
      | _ => cases hchild

theorem holds_of_pointer? {value node : Json} {pointer : String} (hvalue : holds value)
    (h : value.pointer? pointer = some node) : holds node := by
  rw [pointer?] at h
  split at h
  · cases h
    exact hvalue
  · exact holds_of_descend? holds harray hobject hvalue h
  · cases h

end Parts

end Json

namespace Command

open RecordText.Files

namespace Generate

variable {command : Generate} {files : FileTree}

/-- What a generation selects from the value of a file has unique keys and is not nested too deep,
since the whole value is not. -/
theorem isReadable_of_select {path : Path} {text : String} {value node : Json}
    (hvalue : Json.parse? text = some value) (hnode : command.select path value = .ok node)
    (hnumbers : node.NumbersFit) : node.IsReadable Json.depthLimit := by
  have hwhole : value.KeysUnique ∧ value.nesting < Json.depthLimit :=
    ⟨Json.keysUnique_of_parse? hvalue, Json.nesting_of_parse? hvalue⟩
  have hpart : node.KeysUnique ∧ node.nesting < Json.depthLimit := by
    rw [select] at hnode
    split at hnode
    · cases hnode
      exact hwhole
    · split at hnode
      · cases hnode
      · next found hfound =>
          cases hnode
          refine Json.holds_of_pointer? (fun part => part.KeysUnique ∧
            part.nesting < Json.depthLimit) ?_ ?_ hwhole hfound
          · rintro items ⟨hkeys, hnesting⟩ item hitem
            refine ⟨(Json.keysUnique_array_iff items).1 hkeys item hitem, ?_⟩
            exact Nat.lt_trans (Json.nesting_lt_of_mem_items hitem) hnesting
          · rintro members ⟨hkeys, hnesting⟩ member hmember
            refine ⟨((Json.keysUnique_object_iff members).1 hkeys).2 member hmember, ?_⟩
            exact Nat.lt_trans (Json.nesting_lt_of_mem_members hmember) hnesting
  exact ⟨hnumbers, hpart.1, hpart.2⟩

theorem documents_identity {node : Json} (path : Path) (h : node.IsReadable Json.depthLimit) :
    { command with query := some "." }.documents path node = .ok [node] := by
  change (Query.run "." node).mapError _ = _
  rw [Query.run_identity h]
  rfl

/-- Every node that the command selects from the file at a path has only numbers that fit. -/
def SelectsIntegers (command : Generate) (files : FileTree) (path : Path) : Prop :=
  ∀ text value node, readSource files path = .ok text → Json.parse? text = some value →
    command.select path value = .ok node → node.NumbersFit

/-- A file gives the same descriptors with the identity query and without a query. -/
theorem load_identity {path : Path} (h : command.SelectsIntegers files path) :
    { command with query := some "." }.load files path =
      { command with query := none }.load files path := by
  rw [load, load]
  refine bind_congr_of_ok _ fun text htext => ?_
  cases hvalue : Json.parse? text with
  | none => rfl
  | some value =>
      refine bind_congr_of_ok (command.select path value) fun node hnode => ?_
      have hnumbers := h text value node htext hvalue hnode
      rw [documents_identity path (isReadable_of_select hvalue hnode hnumbers)]
      rfl

theorem loadAll_identity {paths : List Path}
    (h : ∀ path ∈ paths, command.SelectsIntegers files path) :
    { command with query := some "." }.loadAll files paths =
      { command with query := none }.loadAll files paths := by
  induction paths with
  | nil => rfl
  | cons path paths ih =>
      obtain ⟨hpath, hpaths⟩ := List.forall_mem_cons.1 h
      rw [loadAll, loadAll, load_identity hpath, ih hpaths]

theorem text_identity
    (h : ∀ paths, resolve files command.inputs = .ok paths →
      ∀ path ∈ paths, command.SelectsIntegers files path) :
    { command with query := some "." }.text files = { command with query := none }.text files := by
  rw [text, text]
  refine bind_congr_of_ok (resolve files command.inputs) fun paths hpaths => ?_
  rw [loadAll_identity (h paths hpaths)]
  rfl

end Generate

end Command

/-- The identity query gives back every value whose numbers are 64-bit integers and that is nested
less than 128 deep. So a generation with it does what the generation without a query does. -/
theorem identity_query_neutral :
    (∀ value : Json, value.NumbersFit → value.KeysUnique → value.nesting < 128 →
      Query.run "." value = .ok [value]) ∧
    ∀ (command : Command.Generate) (workspace : Command.Workspace),
      (∀ paths, Command.resolve workspace.files command.inputs = .ok paths →
        ∀ path ∈ paths, command.SelectsIntegers workspace.files path) →
      { command with query := some "." }.run workspace =
        { command with query := none }.run workspace := by
  constructor
  · intro value hnumbers hkeys hnesting
    exact Query.run_identity ⟨hnumbers, hkeys, hnesting⟩
  · intro command workspace h
    rw [Command.Generate.run, Command.Generate.run, Command.Generate.text_identity h]

/-- A descriptor with a note that holds signs to be escaped and the least and greatest integers. -/
def notedDescriptor : Json :=
  .object [("typeName", .string "A"), ("note", .string "\"é\\\t\x01\""),
    ("bounds", .array [.number (.int (-0x8000000000000000)), .number (.int 0xFFFFFFFFFFFFFFFF)])]

/-- Generate the member of the descriptor. -/
def generateNoted : Command.Generate :=
  { inputs := ["a.json"] }

/-- The file with the descriptor. -/
def notedFiles : Files.FileTree :=
  { entries := [(["a.json"], .file (.text notedDescriptor.render))] }

theorem identity_query_neutral_escaped :
    Query.run "." notedDescriptor = .ok [notedDescriptor] ∧
      { generateNoted with query := some "." }.run { files := notedFiles } =
        { generateNoted with query := none }.run { files := notedFiles } ∧
      (generateNoted.run { files := notedFiles }).2 = none := by
  have hnumbers : notedDescriptor.NumbersFit := by
    simp [notedDescriptor, Json.FitsWord]
  have hkeys : notedDescriptor.KeysUnique := by
    simp [notedDescriptor]
  have hnesting : notedDescriptor.nesting < 128 := by decide +kernel
  have hparse : Json.parse? notedDescriptor.render = some notedDescriptor := by
    rw [Json.parse?, Json.render, String.toList_ofList]
    exact Json.parseChars?_chars ⟨hnumbers, hkeys, hnesting⟩
  refine ⟨identity_query_neutral.1 _ hnumbers hkeys hnesting,
    identity_query_neutral.2 generateNoted _ ?_, ?_⟩
  · intro paths hpaths path hpath text value node htext hvalue hnode
    have hresolve : Command.resolve notedFiles generateNoted.inputs = .ok [⟨"a.json"⟩] := rfl
    cases hresolve.symm.trans hpaths
    obtain rfl := List.mem_singleton.1 hpath
    have hread : Command.readSource notedFiles ⟨"a.json"⟩ = .ok notedDescriptor.render := rfl
    cases hread.symm.trans htext
    cases hparse.symm.trans hvalue
    cases hnode
    exact hnumbers
  · decide +kernel

end RecordText
