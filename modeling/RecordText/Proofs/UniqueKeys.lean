import Mathlib.Data.List.Nodup
import RecordText.Json.Parser

/-!
# Unique keys

An object is a map: its members are kept in a list, but no two of them have the
same key. A key leads to a member exactly when the member stands in that list,
and whatever is read from a text has the keys of all its objects different.

That a property holds of all values read is proved once for any property which
goes from parts to the whole; it may speak of the levels of nesting that are left.
-/

namespace RecordText

section Members

variable {κ α : Type} [DecidableEq κ] {members : List (κ × α)} {key : κ} {value : α}

theorem mem_of_getKey? (h : getKey? members key = some value) : (key, value) ∈ members := by
  induction members with
  | nil => cases h
  | cons first rest ih =>
      rw [getKey?] at h
      split at h
      · next hkey =>
          cases h
          cases hkey
          exact List.mem_cons_self ..
      · exact List.mem_cons_of_mem _ (ih h)

theorem getKey?_of_mem (hkeys : (members.map Prod.fst).Nodup) (h : (key, value) ∈ members) :
    getKey? members key = some value := by
  induction members with
  | nil => cases h
  | cons first rest ih =>
      rw [List.map_cons, List.nodup_cons] at hkeys
      rw [getKey?]
      rcases List.mem_cons.1 h with rfl | h
      · exact if_pos rfl
      · have hne : first.1 ≠ key := by
          rintro rfl
          exact hkeys.1 (List.mem_map.2 ⟨_, h, rfl⟩)
        rw [if_neg hne]
        exact ih hkeys.2 h

/-- What stands in a list after a key was set stood there before or is what was set. -/
theorem mem_setKey {member : κ × α} (h : member ∈ setKey members key value) :
    member = (key, value) ∨ member ∈ members := by
  induction members with
  | nil => exact .inl (List.mem_singleton.1 h)
  | cons first rest ih =>
      rw [setKey] at h
      split at h
      · rcases List.mem_cons.1 h with rfl | h
        · exact .inl rfl
        · exact .inr (List.mem_cons_of_mem _ h)
      · rcases List.mem_cons.1 h with rfl | h
        · exact .inr (List.mem_cons_self ..)
        · exact (ih h).imp_right (List.mem_cons_of_mem _)

/-- Setting a key keeps the keys different from each other. -/
theorem nodup_setKey (key : κ) (value : α) (hkeys : (members.map Prod.fst).Nodup) :
    ((setKey members key value).map Prod.fst).Nodup := by
  induction members with
  | nil => exact List.nodup_singleton key
  | cons first rest ih =>
      rw [List.map_cons, List.nodup_cons] at hkeys
      rw [setKey]
      split
      · next hkey =>
          rw [List.map_cons, List.nodup_cons, ← hkey]
          exact hkeys
      · next hkey =>
          rw [List.map_cons, List.nodup_cons]
          refine ⟨fun hin => ?_, ih hkeys.2⟩
          obtain ⟨member, hmember, heq⟩ := List.mem_map.1 hin
          rcases mem_setKey hmember with rfl | hmember
          · exact hkey heq.symm
          · exact hkeys.1 (List.mem_map.2 ⟨member, hmember, heq⟩)

end Members

namespace Json

/-- The keys of every object in a value differ from each other. -/
inductive KeysUnique : Json → Prop where
  | null : KeysUnique .null
  | bool (value : Bool) : KeysUnique (.bool value)
  | number (value : Number) : KeysUnique (.number value)
  | string (value : String) : KeysUnique (.string value)
  | array (items : List Json) (hitems : ∀ item ∈ items, KeysUnique item) :
      KeysUnique (.array items)
  | object (members : List (String × Json)) (hkeys : (members.map Prod.fst).Nodup)
      (hmembers : ∀ member ∈ members, KeysUnique member.2) : KeysUnique (.object members)

attribute [simp] KeysUnique.null KeysUnique.bool KeysUnique.number KeysUnique.string

@[simp] theorem keysUnique_array_iff (items : List Json) :
    (Json.array items).KeysUnique ↔ ∀ item ∈ items, item.KeysUnique := by
  constructor
  · rintro (_ | _ | _ | _ | ⟨_, hitems⟩)
    exact hitems
  · exact .array items

@[simp] theorem keysUnique_object_iff (members : List (String × Json)) :
    (Json.object members).KeysUnique ↔
      (members.map Prod.fst).Nodup ∧ ∀ member ∈ members, member.2.KeysUnique := by
  constructor
  · rintro (_ | _ | _ | _ | _ | ⟨_, hkeys, hmembers⟩)
    exact ⟨hkeys, hmembers⟩
  · rintro ⟨hkeys, hmembers⟩
    exact .object members hkeys hmembers

/-- A property of the values read where some levels of nesting are left, which scalars have and
which goes from the parts of arrays and objects to the whole. -/
structure IsKeptByReaders (holds : Nat → Json → Prop) : Prop where
  null : ∀ depth, holds depth .null
  bool : ∀ depth value, holds depth (.bool value)
  number : ∀ depth value, holds depth (.number value)
  string : ∀ depth value, holds depth (.string value)
  array : ∀ depth items, 0 < depth → (∀ item ∈ items, holds depth item) →
    holds (depth + 1) (.array items)
  object : ∀ depth members, 0 < depth → (members.map Prod.fst).Nodup →
    (∀ member ∈ members, holds depth member.2) → holds (depth + 1) (.object members)

/-- What the readers of a value, of the items of an array and of the members of an object give when
`fuel` steps are left has a property, if what has been read before has it. -/
structure ReadsOnly (holds : Nat → Json → Prop) (fuel : Nat) : Prop where
  value : ∀ {depth text result}, readValue? fuel depth text = some result → holds depth result.1
  items : ∀ {depth items text result}, 0 < depth → (∀ item ∈ items, holds depth item) →
    readItems? fuel depth items text = some result → holds (depth + 1) result.1
  members : ∀ {depth members text result}, 0 < depth → (members.map Prod.fst).Nodup →
    (∀ member ∈ members, holds depth member.2) →
    readMembers? fuel depth members text = some result → holds (depth + 1) result.1

section Steps

variable {holds : Nat → Json → Prop} {fuel depth : Nat} {text : List Char}
  {result : Json × List Char}

theorem ReadsOnly.value_succ (kept : IsKeptByReaders holds) (ih : ReadsOnly holds fuel)
    (h : readValue? (fuel + 1) depth text = some result) : holds depth result.1 := by
  have hword : ∀ {word value}, holds depth value → readWord? word value text = some result →
      holds depth result.1 := by
    intro word value hvalue h
    obtain ⟨rest, -, rfl⟩ := Option.map_eq_some_iff.1 h
    exact hvalue
  cases text with
  | nil => simp [readValue?] at h
  | cons c rest =>
      simp only [readValue?] at h
      split_ifs at h with hsquare hdepth hcurly hdepth
      · obtain ⟨depth, rfl⟩ : ∃ less, depth = less + 1 := ⟨depth - 1, by omega⟩
        have hpos : 0 < depth := by omega
        split at h
        · cases h
          exact kept.array depth [] hpos (List.forall_mem_nil _)
        · exact ih.items hpos (List.forall_mem_nil _) h
      · obtain ⟨depth, rfl⟩ : ∃ less, depth = less + 1 := ⟨depth - 1, by omega⟩
        have hpos : 0 < depth := by omega
        split at h
        · cases h
          exact kept.object depth [] hpos List.nodup_nil (List.forall_mem_nil _)
        · refine ih.members hpos ?_ ?_ h
          · exact List.nodup_nil
          · exact List.forall_mem_nil _
      · obtain ⟨read, -, rfl⟩ := Option.map_eq_some_iff.1 h
        exact kept.string depth _
      · exact hword (kept.null depth) h
      · exact hword (kept.bool depth true) h
      · exact hword (kept.bool depth false) h
      · obtain ⟨parts, -, h⟩ := Option.bind_eq_some_iff.1 h
        obtain ⟨number, -, h⟩ := Option.bind_eq_some_iff.1 h
        cases h
        exact kept.number depth number

theorem ReadsOnly.items_succ (kept : IsKeptByReaders holds) (ih : ReadsOnly holds fuel)
    {items : List Json} (hpos : 0 < depth) (hitems : ∀ item ∈ items, holds depth item)
    (h : readItems? (fuel + 1) depth items text = some result) : holds (depth + 1) result.1 := by
  simp only [readItems?] at h
  split at h
  · cases h
  · next item rest hitem =>
      have hall : ∀ other ∈ item :: items, holds depth other :=
        List.forall_mem_cons.2 ⟨ih.value hitem, hitems⟩
      split at h
      · exact ih.items hpos hall h
      · cases h
        exact kept.array depth _ hpos fun other hother => hall other (List.mem_reverse.1 hother)
      · cases h

theorem ReadsOnly.members_succ (kept : IsKeptByReaders holds) (ih : ReadsOnly holds fuel)
    {members : List (String × Json)} (hpos : 0 < depth) (hkeys : (members.map Prod.fst).Nodup)
    (hmembers : ∀ member ∈ members, holds depth member.2)
    (h : readMembers? (fuel + 1) depth members text = some result) :
    holds (depth + 1) result.1 := by
  simp only [readMembers?] at h
  split at h
  case h_2 => cases h
  split at h
  case h_1 => cases h
  next key _ _ =>
    split at h
    case h_2 => cases h
    split at h
    case h_1 => cases h
    next value _ hvalue =>
      have hkeys' := nodup_setKey (String.ofList key) value hkeys
      have hall : ∀ member ∈ setKey members (String.ofList key) value, holds depth member.2 := by
        intro member hmember
        rcases mem_setKey hmember with rfl | hmember
        · exact ih.value hvalue
        · exact hmembers member hmember
      split at h
      · exact ih.members hpos hkeys' hall h
      · cases h
        exact kept.object depth _ hpos hkeys' hall
      · cases h

end Steps

theorem IsKeptByReaders.readsOnly {holds : Nat → Json → Prop} (kept : IsKeptByReaders holds)
    (fuel : Nat) : ReadsOnly holds fuel := by
  induction fuel with
  | zero =>
      constructor
      · intro depth text result h
        simp [readValue?] at h
      · intro depth items text result _ _ h
        simp [readItems?] at h
      · intro depth members text result _ _ _ h
        simp [readMembers?] at h
  | succ fuel ih => exact ⟨ih.value_succ kept, ih.items_succ kept, ih.members_succ kept⟩

/-- Whatever is read from a text has the properties that the readers keep. -/
theorem IsKeptByReaders.of_parse? {holds : Nat → Json → Prop} (kept : IsKeptByReaders holds)
    {text : String} {value : Json} (h : parse? text = some value) : holds depthLimit value := by
  rw [parse?, parseChars?] at h
  split at h
  · next value' rest hread =>
      split_ifs at h
      cases h
      exact (kept.readsOnly _).value hread
  · cases h

theorem keysUnique_isKeptByReaders : IsKeptByReaders fun _ => KeysUnique where
  null _ := .null
  bool _ := .bool
  number _ := .number
  string _ := .string
  array _ items _ := .array items
  object _ members _ := .object members

/-- Whatever is read from a text has unique keys. -/
theorem keysUnique_of_parse? {text : String} {value : Json} (h : parse? text = some value) :
    value.KeysUnique :=
  keysUnique_isKeptByReaders.of_parse? h

end Json

end RecordText
