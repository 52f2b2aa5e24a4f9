import RecordText.Proofs.CompletedOutline
import RecordText.Proofs.DescriptorFaults
import RecordText.Proofs.EscapedNames
import RecordText.Proofs.MemberReading

/-!
# Names in an outline

The classes and properties of an outline have names of the form that C# asks
for, with or without an at sign. So the descriptor of a class that was found in
a text has one of two faults, if it has any: a name is a reserved word, or two
properties have the same bare name.
-/

namespace RecordText

namespace Source

theorem isName_of_readProperty? (declaration : List Char) (parts : PropertyParts)
    (h : readProperty? declaration = some parts) : isName parts.name = true := by
  rw [readProperty?_eq] at h
  obtain ⟨arrow, -, hfront⟩ := Option.bind_eq_some_iff.1 h
  dsimp only [readFront?] at hfront
  split at hfront
  · rename_i hform
    obtain rfl := Option.some.inj hfront
    rw [Bool.and_eq_true] at hform
    exact hform.1
  · cases hfront

theorem Segment.isName_of_declared? (segment : Segment) (field : Field)
    (h : segment.declared? = some (.property field)) : isName field.name.toList = true := by
  unfold Segment.declared? at h
  dsimp only at h
  split at h
  · cases h
  · split at h
    · cases h
    · split at h
      · cases h
      · rename_i parts hparts
        split at h
        · cases h
          rw [String.toList_ofList]
          exact isName_of_readProperty? _ parts hparts
        · cases h

theorem mem_properties_iff (declared : List Declared) (field : Field) :
    field ∈ properties declared ↔ .property field ∈ declared := by
  rw [properties, List.mem_filterMap]
  constructor
  · rintro ⟨found, hfound, heq⟩
    split at heq
    · rename_i other
      obtain rfl := Option.some.inj heq
      exact hfound
    · cases heq
  · intro h
    exact ⟨_, h, rfl⟩

/-- Whether the name of a class and those of its properties have the form of names. -/
structure ClassOutline.NamesFormed (found : ClassOutline) : Prop where
  name_form : isName found.name.toList = true
  field_form : ∀ name ∈ found.descriptor.fieldNames, isName name.toList = true

theorem ClassOutline.namesFormed_ofBody (name : List Char) (keywordOffset bodyOpen : Nat)
    (body : Body) (h : isName name = true) :
    (ClassOutline.ofBody name keywordOffset bodyOpen body).NamesFormed := by
  constructor
  · simpa [ClassOutline.ofBody] using h
  · intro fieldName hfield
    obtain ⟨field, hmem, rfl⟩ := List.mem_map.1 hfield
    have hdeclared := (mem_properties_iff _ field).1 hmem
    obtain ⟨segment, -, hsegment⟩ := List.mem_filterMap.1 hdeclared
    exact segment.isName_of_declared? field hsegment

/-- All names in an outline have the form of names. -/
theorem namesFormed_of_mem_outline (text : String) (found : ClassOutline)
    (h : found ∈ outline text) : found.NamesFormed := by
  obtain ⟨header, hheader, rfl⟩ := List.mem_map.1 h
  have hname : isName header.name = true := by
    obtain ⟨front, matched, -, hform, rfl⟩ := foundIn_of_mem_headers _ _ _ header hheader
    exact hform.name_form
  cases hopen : findOpen? header.endOffset header.rest with
  | none =>
      rw [header.outline_of_none hopen]
      constructor
      · simpa [ClassOutline.bodiless] using hname
      · simp [ClassOutline.bodiless, ClassOutline.descriptor, Descriptor.fieldNames]
  | some opened =>
      rw [header.outline_of_some opened.1 opened.2 hopen]
      exact ClassOutline.namesFormed_ofBody _ _ _ _ hname

end Source

open RecordText.Source

/-- A name of the right form is an identifier unless it is a reserved word. -/
theorem checkIdentifier_of_isName (name : String) (h : isName name.toList = true) :
    Language.csharp.checkIdentifier name = .ok () ∨
      Language.csharp.checkIdentifier name = .error .reserved :=
  (Language.csharp.isWellFormed_iff name).2 h

/-- Whether a fault is a clash of names: with a reserved word, or with another field. -/
def Fault.IsClash (fault : Fault) : Prop :=
  (∃ role name, fault = .reservedName role name) ∨ ∃ name, fault = .repeatedField name

theorem NameFault.isClash {role : Role} {name : String} {fault : Fault}
    (h : NameFault .csharp role name fault) (hname : isName name.toList = true) :
    fault.IsClash := by
  have hcheck := checkIdentifier_of_isName name hname
  cases h with
  | empty hissue => simp [hissue] at hcheck
  | malformed hissue => simp [hissue] at hcheck
  | reserved _ => exact .inl ⟨role, name, rfl⟩

/-- A descriptor with names of the right form is rejected for a clash of names only. -/
theorem FirstFault.isClash {descriptor : Descriptor} {fault : Fault}
    (h : FirstFault .csharp descriptor fault) (htype : isName descriptor.typeName.toList = true)
    (hfields : ∀ name ∈ descriptor.fieldNames, isName name.toList = true) : fault.IsClash := by
  cases h with
  | type hfault => exact hfault.isClash htype
  | field _ hfield =>
      cases hfield with
      | name before after name _ hnames _ hfault =>
          exact hfault.isClash (hfields name (by simp [hnames]))
      | repeated before after name => exact .inr ⟨name, rfl⟩

end RecordText
