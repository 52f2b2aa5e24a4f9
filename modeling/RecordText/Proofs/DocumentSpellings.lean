import RecordText.Descriptor.Document
import RecordText.Proofs.Outcomes

/-!
# Spellings of descriptor documents

A list of descriptors can be spelled in many ways. The keys of an object stand
in any order and with other keys among them, a part that has its default may be
left out, and below the outermost level a record may also be the array of its
parts. Every record of a document is spelled in its own way, independently of
those around it and inside it.

Whatever the spelling, the descriptors are read back.

## Implementation notes

Descriptors and fields are both records of two parts, the second of which has a
default. How such a record is spelled is said once, in terms of how its parts
are spelled.
-/

namespace RecordText

namespace Document

section Reading

variable {α : Type}

@[simp] theorem below_eq_ok_iff (step : Json.PathStep) (result : Except Failure α) (a : α) :
    below step result = .ok a ↔ result = .ok a :=
  mapError_eq_ok_iff _ _ a

/-- The items of an array are read one by one. -/
theorem readItems_eq_ok_iff (read : Json → Except Failure α) (index : Nat) (items : List Json)
    (values : List α) : readItems read index items = .ok values ↔
      List.Forall₂ (fun item value => read item = .ok value) items values := by
  induction items generalizing index values with
  | nil =>
      rw [readItems, Except.ok.injEq, List.forall₂_nil_left_iff]
      exact eq_comm
  | cons item rest ih =>
      simp only [readItems, bind_eq_ok_iff, below_eq_ok_iff, pure_eq_ok_iff, ih,
        List.forall₂_cons_left_iff, exists_and_left]

end Reading

/-- A part that may be left out where it is the default. -/
inductive SpellsLast {β : Type} (SpellsSecond : β → Json → Prop) (default : β) :
    β → Option Json → Prop where
  | written (b : β) (value : Json) (h : SpellsSecond b value) :
      SpellsLast SpellsSecond default b (some value)
  | omitted : SpellsLast SpellsSecond default default none

/-- The spellings of a record of two parts: an object with the two keys and any others, in any
order, or the array of the parts. -/
inductive SpellsRecord {α β : Type} (firstKey secondKey : String)
    (SpellsFirst : α → Json → Prop) (SpellsSecond : β → Json → Prop) (default : β)
    (a : α) (b : β) : Json → Prop where
  | object (first : Json) (second : Option Json) (others members : List (String × Json))
      (hfirst : SpellsFirst a first) (hsecond : SpellsLast SpellsSecond default b second)
      (hothers : ∀ other ∈ others, other.1 ≠ firstKey ∧ other.1 ≠ secondKey)
      (hmembers : members.Perm
        ((firstKey, first) :: (second.toList.map fun value => (secondKey, value)) ++ others)) :
      SpellsRecord firstKey secondKey SpellsFirst SpellsSecond default a b (.object members)
  | array (first : Json) (second : Option Json)
      (hfirst : SpellsFirst a first) (hsecond : SpellsLast SpellsSecond default b second) :
      SpellsRecord firstKey secondKey SpellsFirst SpellsSecond default a b
        (.array (first :: second.toList))

/-- The spelling of a text. -/
def SpellsText (text : String) (value : Json) : Prop :=
  value = .string text

/-- The spellings of a field. -/
def SpellsField (field : Field) (value : Json) : Prop :=
  SpellsRecord "name" "declaredType" SpellsText SpellsText "" field.name field.declaredType value

/-- The spellings of fields, each in its own way. -/
def SpellsFields (fields : List Field) (value : Json) : Prop :=
  ∃ items, value = .array items ∧ List.Forall₂ SpellsField fields items

/-- The spellings of a descriptor. -/
def SpellsDescriptor (descriptor : Descriptor) (value : Json) : Prop :=
  SpellsRecord "typeName" "fields" SpellsText SpellsFields [] descriptor.typeName
    descriptor.fields value

/-- The spellings of a list of descriptors as a document: an array of them, or an object for a
single one. -/
inductive Spells : List Descriptor → Json → Prop where
  | array (descriptors : List Descriptor) (items : List Json)
      (h : List.Forall₂ SpellsDescriptor descriptors items) : Spells descriptors (.array items)
  | single (descriptor : Descriptor) (members : List (String × Json))
      (h : SpellsDescriptor descriptor (.object members)) :
      Spells [descriptor] (.object members)

section Records

variable {α β : Type} {firstKey secondKey : String}
  {readFirst : Json → Except Failure α} {readSecond : Json → Except Failure β} {default : β}
  {a : α} {b : β}

/-- The members of an object are visited in order, but what is found depends only on which keys
there are, as long as a key has the same meaning wherever it stands. -/
theorem visit_eq_ok (hkeys : firstKey ≠ secondKey) (members : List (String × Json))
    (first : Option α) (second : Option β)
    (hfirst : ∀ entry ∈ members, entry.1 = firstKey → readFirst entry.2 = .ok a)
    (hsecond : ∀ entry ∈ members, entry.1 = secondKey → readSecond entry.2 = .ok b)
    (hfound : first = some a ∨ firstKey ∈ members.map Prod.fst) :
    readRecord.visit firstKey secondKey readFirst readSecond default first second members =
      .ok (a, if secondKey ∈ members.map Prod.fst then b else second.getD default) := by
  induction members generalizing first second with
  | nil =>
      obtain rfl : first = some a := by simpa using hfound
      rfl
  | cons entry rest ih =>
      obtain ⟨key, value⟩ := entry
      have hrest (first' : Option α) (second' : Option β) :=
        ih first' second' (fun e he => hfirst e (List.mem_cons_of_mem _ he))
          fun e he => hsecond e (List.mem_cons_of_mem _ he)
      rw [readRecord.visit]
      by_cases hone : key = firstKey
      · subst hone
        have hread := hfirst _ (List.mem_cons_self ..) rfl
        have hmem : secondKey ∈ ((key, value) :: rest).map Prod.fst ↔
            secondKey ∈ rest.map Prod.fst := by
          simp [hkeys.symm]
        rw [if_pos rfl, (below_eq_ok_iff _ _ _).2 hread, if_congr hmem rfl rfl]
        exact hrest (some a) second (.inl rfl)
      · have hfound' : first = some a ∨ firstKey ∈ rest.map Prod.fst := by
          simpa [Ne.symm hone] using hfound
        rw [if_neg hone]
        by_cases htwo : key = secondKey
        · subst htwo
          have hread := hsecond _ (List.mem_cons_self ..) rfl
          rw [if_pos rfl, (below_eq_ok_iff _ _ _).2 hread, if_pos (by simp)]
          refine (hrest first (some b) hfound').trans ?_
          rw [Option.getD_some, ite_self]
        · have hmem : secondKey ∈ ((key, value) :: rest).map Prod.fst ↔
              secondKey ∈ rest.map Prod.fst := by
            simp [Ne.symm htwo]
          rw [if_neg htwo, if_congr hmem rfl rfl]
          exact hrest first second hfound'

variable {SpellsFirst : α → Json → Prop} {SpellsSecond : β → Json → Prop}

/-- A record is read from each of its spellings if its parts are. -/
theorem readRecord_of_spellsRecord (expected : Expected) (hkeys : firstKey ≠ secondKey)
    (hfirst : ∀ value, SpellsFirst a value → readFirst value = .ok a)
    (hsecond : ∀ value, SpellsSecond b value → readSecond value = .ok b) (value : Json)
    (h : SpellsRecord firstKey secondKey SpellsFirst SpellsSecond default a b value) :
    readRecord expected firstKey secondKey readFirst readSecond default value = .ok (a, b) := by
  cases h with
  | object first second others members hspells hlast hothers hmembers =>
      have hmem (entry : String × Json) := hmembers.mem_iff (a := entry)
      have hkey (key : String) : key ∈ members.map Prod.fst ↔
          key = firstKey ∨ (key = secondKey ∧ second.isSome) ∨ key ∈ others.map Prod.fst := by
        rw [(hmembers.map Prod.fst).mem_iff]
        cases second <;> simp
      refine (visit_eq_ok (a := a) (b := b) hkeys members none none ?_ ?_ ?_).trans ?_
      · intro entry hentry hname
        obtain rfl : entry = (firstKey, first) := by grind
        exact hfirst first hspells
      · intro entry hentry hname
        cases hlast with
        | written _ value hvalue =>
            obtain rfl : entry = (secondKey, value) := by grind
            exact hsecond value hvalue
        | omitted => grind
      · exact .inr ((hkey firstKey).2 (.inl rfl))
      · cases hlast with
        | written => rw [if_pos ((hkey secondKey).2 (.inr (.inl ⟨rfl, rfl⟩)))]
        | omitted =>
            rw [if_neg, Option.getD_none]
            rw [hkey]
            grind
  | array first second hspells hlast =>
      have hread := hfirst first hspells
      cases hlast with
      | written _ value hvalue =>
          simp only [Option.toList_some, readRecord, hread, hsecond value hvalue, below,
            Except.mapError, List.isEmpty_nil, if_true]
          rfl
      | omitted =>
          simp only [Option.toList_none, readRecord, hread, below, Except.mapError]
          rfl

end Records

theorem readText_of_spellsText (text : String) (value : Json) (h : SpellsText text value) :
    readText value = .ok text := by
  rw [SpellsText] at h
  rw [h, readText]

/-- A field is read from each of its spellings. -/
theorem readField_of_spellsField (field : Field) (value : Json) (h : SpellsField field value) :
    readField value = .ok field := by
  have hrecord := readRecord_of_spellsRecord .field (by decide)
    (readText_of_spellsText field.name) (readText_of_spellsText field.declaredType) value h
  rw [readField, hrecord]
  rfl

theorem readSequence_of_spellsFields (fields : List Field) (value : Json)
    (h : SpellsFields fields value) : readSequence readField value = .ok fields := by
  obtain ⟨items, rfl, hitems⟩ := h
  rw [readSequence, readItems_eq_ok_iff]
  exact (hitems.imp fun field item hfield => readField_of_spellsField field item hfield).flip

/-- A descriptor is read from each of its spellings. -/
theorem readDescriptor_of_spellsDescriptor (descriptor : Descriptor) (value : Json)
    (h : SpellsDescriptor descriptor value) : readDescriptor value = .ok descriptor := by
  have hrecord := readRecord_of_spellsRecord .descriptor (by decide)
    (readText_of_spellsText descriptor.typeName)
    (readSequence_of_spellsFields descriptor.fields) value h
  rw [readDescriptor, hrecord]
  rfl

/-- A document is read from each of its spellings. -/
theorem read_of_spells (descriptors : List Descriptor) (document : Json)
    (h : Spells descriptors document) : read document = .ok descriptors := by
  cases h with
  | array _ items hitems =>
      rw [read, readItems_eq_ok_iff]
      exact (hitems.imp readDescriptor_of_spellsDescriptor).flip
  | single descriptor members hmembers =>
      rw [read, readDescriptor_of_spellsDescriptor descriptor _ hmembers]
      · rfl
      · simp

theorem spellsField_fieldJson (field : Field) : SpellsField field (fieldJson field) :=
  .object (.string field.name) (some (.string field.declaredType)) [] _ rfl (.written _ _ rfl)
    (by simp) (.refl _)

theorem spellsDescriptor_descriptorJson (descriptor : Descriptor) :
    SpellsDescriptor descriptor (descriptorJson descriptor) := by
  have hfields : SpellsFields descriptor.fields (.array (descriptor.fields.map fieldJson)) :=
    ⟨_, rfl, List.forall₂_map_right_iff.2 (List.forall₂_same.2 fun field _ =>
      spellsField_fieldJson field)⟩
  exact .object (.string descriptor.typeName) (some _) [] _ rfl (.written _ _ hfields)
    (by simp) (.refl _)

/-- Descriptors are read back from the array of their object forms, a single one from its object
form, and all of them from every other spelling, in which each descriptor and each field has its
keys in any order and any other keys among them, may leave out what is empty, and below the
outermost level may be the array of its parts. -/
theorem read_spellings :
    (∀ descriptors : List Descriptor,
      read (.array (descriptors.map descriptorJson)) = .ok descriptors) ∧
    (∀ descriptor : Descriptor, read (descriptorJson descriptor) = .ok [descriptor]) ∧
    ∀ (descriptors : List Descriptor) (document : Json),
      Spells descriptors document → read document = .ok descriptors := by
  refine ⟨fun descriptors => ?_, fun descriptor => ?_, read_of_spells⟩
  · apply read_of_spells
    exact .array _ _ (List.forall₂_map_right_iff.2 (List.forall₂_same.2 fun descriptor _ =>
      spellsDescriptor_descriptorJson descriptor))
  · exact read_of_spells _ _ (.single descriptor _ (spellsDescriptor_descriptorJson descriptor))

/-- An object with its keys exchanged and another key between them, and an array that leaves out
the fields; the fields of the object are an array without its type, and an object without it. -/
theorem read_mixedSpellings :
    read (.array [
      .object [("fields", .array [.array [.string "X"],
          .object [("id", .null), ("name", .string "Y")]]),
        ("name", .bool true), ("typeName", .string "Point")],
      .array [.string "Empty"]]) =
      .ok [{ typeName := "Point", fields := [{ name := "X" }, { name := "Y" }] },
        { typeName := "Empty" }] := by
  have hshort : SpellsField { name := "X" } (.array [.string "X"]) :=
    .array (.string "X") none rfl .omitted
  have hnamed : SpellsField { name := "Y" }
      (.object [("id", .null), ("name", .string "Y")]) :=
    .object (.string "Y") none [("id", .null)] _ rfl .omitted (by simp) (List.Perm.swap _ _ _)
  have hpoint : SpellsDescriptor
      { typeName := "Point", fields := [{ name := "X" }, { name := "Y" }] }
      (.object [("fields", .array [.array [.string "X"],
          .object [("id", .null), ("name", .string "Y")]]),
        ("name", .bool true), ("typeName", .string "Point")]) :=
    .object (.string "Point") (some _) [("name", .bool true)] _ rfl
      (.written _ _ ⟨_, rfl, .cons hshort (.cons hnamed .nil)⟩) (by simp)
      (List.reverse_perm [_, _, _] |>.trans (List.Perm.cons _ (List.Perm.swap _ _ _)))
  have hempty : SpellsDescriptor { typeName := "Empty" } (.array [.string "Empty"]) :=
    .array (.string "Empty") none rfl .omitted
  exact read_spellings.2.2 _ _ (.array _ _ (.cons hpoint (.cons hempty .nil)))

end Document

end RecordText
