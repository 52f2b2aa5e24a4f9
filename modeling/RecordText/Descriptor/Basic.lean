/-!
# Type descriptors

A record-like type is described by its name and its fields in declaration
order. A field has a name and a declared type, which is carried along and never
looked at when a member is written.
-/

namespace RecordText

/-- One named field of a record-like type. -/
structure Field where
  name : String
  declaredType : String := ""
  deriving DecidableEq, Repr

/-- A record-like type: a name and fields in declaration order. -/
structure Descriptor where
  typeName : String
  fields : List Field := []
  deriving DecidableEq, Repr

namespace Descriptor

/-- The descriptor with one more field at the end. -/
def addField (descriptor : Descriptor) (name declaredType : String) : Descriptor :=
  { descriptor with fields := descriptor.fields ++ [{ name, declaredType }] }

/-- The names of the fields in declaration order. -/
def fieldNames (descriptor : Descriptor) : List String :=
  descriptor.fields.map Field.name

@[simp] theorem fieldNames_addField (descriptor : Descriptor) (name declaredType : String) :
    (descriptor.addField name declaredType).fieldNames = descriptor.fieldNames ++ [name] := by
  simp [addField, fieldNames]

end Descriptor

end RecordText
