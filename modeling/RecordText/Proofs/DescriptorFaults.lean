import RecordText.Proofs.MemberLines
import RecordText.Proofs.Outcomes

/-!
# The first fault of a descriptor

The names of a descriptor are checked in order, first that of the type, then
those of the fields. Checking stops at the first fault: a name that is no
identifier, or the name of a field that has the bare name of an earlier one.
All names before the fault are in order.

## Main statements

* `checkFields_cons_cases`: what the check of one name can come to.
* `checkFields_eq_ok_iff`, `checkFields_eq_error_iff`: the outcome of the check
  of field names, said without the check.
* `validate_reports_first_fault`: what is accepted, and what is reported
  otherwise.
-/

namespace RecordText

/-- What is wrong with a name that is no identifier. -/
inductive NameFault (language : Language) (role : Role) (name : String) : Fault → Prop where
  | empty (h : language.checkIdentifier name = .error .empty) :
      NameFault language role name (.emptyName role)
  | malformed (h : language.checkIdentifier name = .error .malformed) :
      NameFault language role name (.malformedName role name)
  | reserved (h : language.checkIdentifier name = .error .reserved) :
      NameFault language role name (.reservedName role name)

/-- Field names that are in order: all of them are identifiers, and no two of them have the same
bare name. -/
structure SoundFields (language : Language) (names : List String) : Prop where
  identifiers : ∀ name ∈ names, language.checkIdentifier name = .ok ()
  distinct : (names.map language.bareName).Nodup

/-- The first fault among field names: the names before it are in order, and it is a name that is no
identifier, or one whose bare name an earlier field has. -/
inductive FieldFault (language : Language) (names : List String) : Fault → Prop where
  | name (before after : List String) (name : String) (fault : Fault)
      (hnames : names = before ++ name :: after) (hbefore : SoundFields language before)
      (hfault : NameFault language .field name fault) : FieldFault language names fault
  | repeated (before after : List String) (name : String)
      (hnames : names = before ++ name :: after) (hbefore : SoundFields language before)
      (hname : language.checkIdentifier name = .ok ())
      (hseen : ∃ earlier ∈ before, language.bareName earlier = language.bareName name) :
      FieldFault language names (.repeatedField name)

/-- The first fault of a descriptor: that of its type name or, if this is an identifier, the first
one among its fields. -/
inductive FirstFault (language : Language) (descriptor : Descriptor) (fault : Fault) : Prop where
  | type (h : NameFault language .type descriptor.typeName fault) :
      FirstFault language descriptor fault
  | field (htype : language.checkIdentifier descriptor.typeName = .ok ())
      (h : FieldFault language descriptor.fieldNames fault) : FirstFault language descriptor fault

section Names

variable (language : Language) (role : Role) (name : String)

theorem checkName_eq_ok_iff :
    checkName language role name = .ok () ↔ language.checkIdentifier name = .ok () := by
  constructor
  · exact checkName_eq_ok language role name ()
  · intro h
    rw [checkName, h]

theorem checkName_eq_error_iff (fault : Fault) :
    checkName language role name = .error fault ↔ NameFault language role name fault := by
  constructor
  · intro h
    unfold checkName at h
    split at h
    · cases h
    · rename_i issue hissue
      obtain rfl := Except.error.inj h
      cases issue with
      | empty => exact .empty hissue
      | malformed => exact .malformed hissue
      | reserved => exact .reserved hissue
  · intro h
    cases h with
    | empty hissue => simp only [checkName, hissue, Fault.ofIssue]
    | malformed hissue => simp only [checkName, hissue, Fault.ofIssue]
    | reserved hissue => simp only [checkName, hissue, Fault.ofIssue]

end Names

/-- A name with a fault is no identifier. -/
theorem NameFault.not_ok {language : Language} {role : Role} {name : String} {fault : Fault}
    (h : NameFault language role name fault) : language.checkIdentifier name ≠ .ok () := by
  cases h with
  | empty hissue => simp [hissue]
  | malformed hissue => simp [hissue]
  | reserved hissue => simp [hissue]

section Fields

variable (language : Language)

/-- What the check of a name comes to, whatever names follow: a fault of the name, a repetition, or
the check of the names that follow. -/
theorem checkFields_cons_cases (seen : List String) (name : String) :
    (∃ fault, NameFault language .field name fault ∧
      ∀ rest, checkFields language seen (name :: rest) = .error fault) ∨
    (language.checkIdentifier name = .ok () ∧ language.bareName name ∈ seen ∧
      ∀ rest, checkFields language seen (name :: rest) = .error (.repeatedField name)) ∨
    (language.checkIdentifier name = .ok () ∧ language.bareName name ∉ seen ∧
      ∀ rest, checkFields language seen (name :: rest) =
        checkFields language (language.bareName name :: seen) rest) := by
  cases hname : checkName language .field name with
  | error fault =>
      left
      refine ⟨fault, (checkName_eq_error_iff language .field name fault).1 hname, fun rest => ?_⟩
      rw [checkFields, hname]
  | ok u =>
      right
      have hidentifier := checkName_eq_ok language .field name u hname
      by_cases hseen : language.bareName name ∈ seen
      · left
        refine ⟨hidentifier, hseen, fun rest => ?_⟩
        rw [checkFields, hname]
        simp [hseen]
      · right
        refine ⟨hidentifier, hseen, fun rest => ?_⟩
        rw [checkFields, hname]
        simp [hseen]

/-- Names are checked behind those before them, whose bare names have then been seen. -/
theorem checkFields_append_of_ok (seen front rest : List String)
    (h : checkFields language seen front = .ok ()) :
    checkFields language seen (front ++ rest) =
      checkFields language ((front.map language.bareName).reverse ++ seen) rest := by
  induction front generalizing seen with
  | nil => rfl
  | cons name front ih =>
      rcases checkFields_cons_cases language seen name with
        ⟨fault, -, hstep⟩ | ⟨-, -, hstep⟩ | ⟨-, -, hstep⟩
      · rw [hstep] at h
        cases h
      · rw [hstep] at h
        cases h
      · rw [hstep] at h
        rw [List.cons_append, hstep, ih _ h]
        simp

theorem soundFields_nil : SoundFields language [] :=
  ⟨by simp, by simp⟩

theorem soundFields_cons_iff (name : String) (rest : List String) :
    SoundFields language (name :: rest) ↔ language.checkIdentifier name = .ok () ∧
      SoundFields language rest ∧
      ∀ other ∈ rest, language.bareName other ≠ language.bareName name := by
  constructor
  · rintro ⟨hnames, hdistinct⟩
    rw [List.map_cons, List.nodup_cons] at hdistinct
    rw [List.forall_mem_cons] at hnames
    refine ⟨hnames.1, ⟨hnames.2, hdistinct.2⟩, ?_⟩
    intro other hother heq
    exact hdistinct.1 (List.mem_map.2 ⟨other, hother, heq⟩)
  · rintro ⟨hname, hrest, hother⟩
    constructor
    · exact List.forall_mem_cons.2 ⟨hname, hrest.identifiers⟩
    · rw [List.map_cons, List.nodup_cons]
      refine ⟨?_, hrest.distinct⟩
      intro hmem
      obtain ⟨other, hin, heq⟩ := List.mem_map.1 hmem
      exact hother other hin heq

/-- Field names pass the check exactly if they are in order and none of their bare names was seen
before. -/
theorem checkFields_eq_ok_iff (seen names : List String) :
    checkFields language seen names = .ok () ↔
      SoundFields language names ∧ ∀ name ∈ names, language.bareName name ∉ seen := by
  induction names generalizing seen with
  | nil => simp [checkFields, soundFields_nil]
  | cons name rest ih =>
      rw [soundFields_cons_iff, List.forall_mem_cons]
      rcases checkFields_cons_cases language seen name with
        ⟨fault, hfault, hstep⟩ | ⟨hname, hseen, hstep⟩ | ⟨hname, hseen, hstep⟩
      · simp [hstep, hfault.not_ok]
      · simp [hstep, hseen]
      · rw [hstep, ih]
        constructor
        · rintro ⟨hrest, hfresh⟩
          simp only [List.mem_cons, not_or] at hfresh
          exact ⟨⟨hname, hrest, fun other hother => (hfresh other hother).1⟩, hseen,
            fun other hother => (hfresh other hother).2⟩
        · rintro ⟨⟨-, hrest, hother⟩, -, hfresh⟩
          refine ⟨hrest, fun other hin => ?_⟩
          rw [List.mem_cons, not_or]
          exact ⟨hother other hin, hfresh other hin⟩

/-- A failed check of names fails at one of them, and those before it pass. -/
theorem exists_of_checkFields_error (seen names : List String) (fault : Fault)
    (h : checkFields language seen names = .error fault) :
    ∃ before name after, names = before ++ name :: after ∧
      checkFields language seen before = .ok () ∧
      (NameFault language .field name fault ∨
        language.checkIdentifier name = .ok () ∧ fault = .repeatedField name ∧
          language.bareName name ∈ (before.map language.bareName).reverse ++ seen) := by
  induction names generalizing seen with
  | nil => cases h
  | cons name rest ih =>
      rcases checkFields_cons_cases language seen name with
        ⟨found, hfound, hstep⟩ | ⟨hname, hseen, hstep⟩ | ⟨-, -, hstep⟩
      · rw [hstep] at h
        obtain rfl := Except.error.inj h
        exact ⟨[], name, rest, rfl, rfl, .inl hfound⟩
      · rw [hstep] at h
        exact ⟨[], name, rest, rfl, rfl, .inr ⟨hname, (Except.error.inj h).symm, hseen⟩⟩
      · rw [hstep] at h
        obtain ⟨before, bad, after, rfl, hbefore, hbad⟩ := ih _ h
        refine ⟨name :: before, bad, after, rfl, ?_, ?_⟩
        · rw [hstep, hbefore]
        · simpa using hbad

/-- The check of field names fails with the first fault among them, and with no other. -/
theorem checkFields_eq_error_iff (names : List String) (fault : Fault) :
    checkFields language [] names = .error fault ↔ FieldFault language names fault := by
  have hpass (before : List String) :
      checkFields language [] before = .ok () ↔ SoundFields language before := by
    simp [checkFields_eq_ok_iff]
  constructor
  · intro h
    obtain ⟨before, name, after, hnames, hbefore, hbad⟩ :=
      exists_of_checkFields_error language [] names fault h
    rw [hpass] at hbefore
    rcases hbad with hfault | ⟨hname, rfl, hseen⟩
    · exact .name before after name fault hnames hbefore hfault
    · exact .repeated before after name hnames hbefore hname (by simpa using hseen)
  · intro h
    cases h with
    | name before after name _ hnames hbefore hfault =>
        rw [hnames, checkFields_append_of_ok _ _ _ _ ((hpass before).2 hbefore), checkFields,
          (checkName_eq_error_iff language .field name fault).2 hfault]
    | repeated before after name hnames hbefore hname hseen =>
        rw [hnames, checkFields_append_of_ok _ _ _ _ ((hpass before).2 hbefore), checkFields,
          (checkName_eq_ok_iff language .field name).2 hname]
        simp [hseen]

end Fields

section Descriptors

variable (language : Language) (descriptor : Descriptor)

theorem validate_eq_ok_iff :
    descriptor.validate language = .ok () ↔
      language.checkIdentifier descriptor.typeName = .ok () ∧
        SoundFields language descriptor.fieldNames := by
  rw [Descriptor.validate, mapError_eq_ok_iff, Descriptor.check]
  cases htype : checkName language .type descriptor.typeName with
  | error fault =>
      have hfault := (checkName_eq_error_iff language .type descriptor.typeName fault).1 htype
      simp [hfault.not_ok]
  | ok u =>
      have hidentifier := checkName_eq_ok language .type descriptor.typeName u htype
      simp [checkFields_eq_ok_iff, hidentifier]

theorem check_eq_error_iff (fault : Fault) :
    descriptor.check language = .error fault ↔ FirstFault language descriptor fault := by
  unfold Descriptor.check
  cases htype : checkName language .type descriptor.typeName with
  | error found =>
      have hfound := (checkName_eq_error_iff language .type descriptor.typeName found).1 htype
      constructor
      · intro h
        obtain rfl := Except.error.inj h
        exact .type hfound
      · intro h
        cases h with
        | type hfault => rw [← htype, (checkName_eq_error_iff _ _ _ fault).2 hfault]
        | field hidentifier _ => exact absurd hidentifier hfound.not_ok
  | ok u =>
      have hidentifier := checkName_eq_ok language .type descriptor.typeName u htype
      constructor
      · intro h
        exact .field hidentifier ((checkFields_eq_error_iff language _ fault).1 h)
      · intro h
        cases h with
        | type hfault => exact absurd hidentifier hfault.not_ok
        | field _ hfault => exact (checkFields_eq_error_iff language _ fault).2 hfault

/-- A rejected descriptor is reported with its type name and its first fault. -/
theorem validate_eq_error_iff (invalid : InvalidDescriptor) :
    descriptor.validate language = .error invalid ↔
      invalid.typeName = descriptor.typeName ∧ FirstFault language descriptor invalid.fault := by
  rw [Descriptor.validate, mapError_eq_error_iff]
  constructor
  · rintro ⟨fault, hfault, rfl⟩
    exact ⟨rfl, (check_eq_error_iff language descriptor fault).1 hfault⟩
  · rintro ⟨htype, hfault⟩
    exact ⟨invalid.fault, (check_eq_error_iff language descriptor _).2 hfault, by rw [← htype]⟩

end Descriptors

/-- Names behind a fault do not hide it. -/
theorem FieldFault.append {language : Language} {names : List String} {fault : Fault}
    (more : List String) (h : FieldFault language names fault) :
    FieldFault language (names ++ more) fault := by
  cases h with
  | name before after name _ hnames hbefore hfault =>
      exact .name before (after ++ more) name fault (by simp [hnames]) hbefore hfault
  | repeated before after name hnames hbefore hname hseen =>
      exact .repeated before (after ++ more) name (by simp [hnames]) hbefore hname hseen

theorem FirstFault.append {language : Language} {descriptor : Descriptor} {fault : Fault}
    (more : List Field) (h : FirstFault language descriptor fault) :
    FirstFault language { descriptor with fields := descriptor.fields ++ more } fault := by
  cases h with
  | type hfault => exact .type hfault
  | field htype hfault =>
      refine .field htype ?_
      rw [Descriptor.fieldNames, List.map_append]
      exact hfault.append (more.map Field.name)

theorem SoundFields.perm {language : Language} {names other : List String}
    (h : SoundFields language names) (hperm : other.Perm names) : SoundFields language other := by
  constructor
  · intro name hname
    exact h.identifiers name (hperm.mem_iff.1 hname)
  · exact (hperm.map language.bareName).nodup_iff.2 h.distinct

/-- A descriptor is accepted exactly if its type name and its field names are identifiers and no two
fields have the same bare name. Otherwise it is reported with its type name and its first fault.
Further fields do not change the report, and the order of the fields does not change whether the
descriptor is accepted. -/
theorem validate_reports_first_fault (language : Language) (descriptor : Descriptor) :
    (descriptor.validate language = .ok () ↔
      language.checkIdentifier descriptor.typeName = .ok () ∧
        SoundFields language descriptor.fieldNames) ∧
    (∀ invalid : InvalidDescriptor, descriptor.validate language = .error invalid ↔
      invalid.typeName = descriptor.typeName ∧ FirstFault language descriptor invalid.fault) ∧
    (∀ (more : List Field) (invalid : InvalidDescriptor),
      descriptor.validate language = .error invalid →
        Descriptor.validate { descriptor with fields := descriptor.fields ++ more } language =
          .error invalid) ∧
    ∀ fields : List Field, fields.Perm descriptor.fields →
      (Descriptor.validate { descriptor with fields } language = .ok () ↔
        descriptor.validate language = .ok ()) := by
  refine ⟨validate_eq_ok_iff language descriptor, validate_eq_error_iff language descriptor,
    ?_, ?_⟩
  · intro more invalid h
    rw [validate_eq_error_iff] at h ⊢
    exact ⟨h.1, h.2.append more⟩
  · intro fields hperm
    have hnames := hperm.map Field.name
    rw [validate_eq_ok_iff, validate_eq_ok_iff]
    constructor
    · rintro ⟨htype, hsound⟩
      exact ⟨htype, hsound.perm hnames.symm⟩
    · rintro ⟨htype, hsound⟩
      exact ⟨htype, hsound.perm hnames⟩

/-- A field that repeats an escaped name, with a reserved word behind it that is not looked at. -/
theorem validate_reports_first_fault_escaped :
    Descriptor.validate { typeName := "Row", fields := [⟨"Id", "int"⟩, ⟨"@Id", "int"⟩] } .csharp =
        .error { typeName := "Row", fault := .repeatedField "@Id" } ∧
      Descriptor.validate
          { typeName := "Row", fields := [⟨"Id", "int"⟩, ⟨"@Id", "int"⟩, ⟨"class", "int"⟩] }
          .csharp =
        .error { typeName := "Row", fault := .repeatedField "@Id" } ∧
      Descriptor.validate { typeName := "Row", fields := [⟨"@Id", "int"⟩, ⟨"Id", "int"⟩] } .csharp ≠
        .ok () := by
  have hrow : Descriptor.validate
      { typeName := "Row", fields := [⟨"Id", "int"⟩, ⟨"@Id", "int"⟩] } .csharp =
        .error { typeName := "Row", fault := .repeatedField "@Id" } := by
    decide +kernel
  obtain ⟨-, -, hmore, hperm⟩ := validate_reports_first_fault .csharp
    { typeName := "Row", fields := [⟨"Id", "int"⟩, ⟨"@Id", "int"⟩] }
  refine ⟨hrow, hmore [⟨"class", "int"⟩] _ hrow, ?_⟩
  rw [Ne, hperm _ (List.Perm.swap _ _ _), hrow]
  simp

end RecordText
