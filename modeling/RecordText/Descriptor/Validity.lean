import RecordText.Descriptor.Basic
import RecordText.Language.Identifier

/-!
# Valid descriptors

A descriptor is valid for a language when its type name and field names are
identifiers of the language and no two fields have the same bare name. The
first fault is reported, in the order type name, first field, second field and
so on.
-/

namespace RecordText

open RecordText.Language (IdentifierIssue)

/-- Which part of a descriptor a name comes from. -/
inductive Role where
  | type
  | field
  deriving DecidableEq, Repr

/-- The word for a role. -/
def Role.word : Role → String
  | type => "type"
  | field => "field"

/-- What is wrong with a descriptor. -/
inductive Fault where
  | emptyName (role : Role)
  | malformedName (role : Role) (name : String)
  | reservedName (role : Role) (name : String)
  | repeatedField (name : String)
  deriving DecidableEq, Repr

/-- The sentence that states a fault. -/
def Fault.message : Fault → String
  | emptyName role => role.word ++ " name is empty"
  | malformedName role name => role.word ++ " name `" ++ name ++ "` is not a valid identifier"
  | reservedName role name => role.word ++ " name `" ++ name ++ "` is a reserved word"
  | repeatedField name => "field `" ++ name ++ "` is declared more than once"

/-- A rejected descriptor: its type name and its first fault. -/
structure InvalidDescriptor where
  typeName : String
  fault : Fault
  deriving DecidableEq, Repr

/-- The text that reports a rejected descriptor. -/
def InvalidDescriptor.message (invalid : InvalidDescriptor) : String :=
  "invalid type descriptor `" ++ invalid.typeName ++ "`: " ++ invalid.fault.message

/-- The fault that an identifier issue amounts to, for a name in a given role. -/
def Fault.ofIssue (role : Role) (name : String) : IdentifierIssue → Fault
  | .empty => emptyName role
  | .malformed => malformedName role name
  | .reserved => reservedName role name

/-- Check one name of a descriptor. -/
def checkName (language : Language) (role : Role) (name : String) : Except Fault Unit :=
  match language.checkIdentifier name with
  | .ok _ => .ok ()
  | .error issue => .error (Fault.ofIssue role name issue)

/-- Check field names in order against the bare names seen before them. -/
def checkFields (language : Language) (seen : List String) : List String → Except Fault Unit
  | [] => .ok ()
  | name :: rest =>
    match checkName language .field name with
    | .error fault => .error fault
    | .ok _ =>
      if seen.contains (language.bareName name) then .error (.repeatedField name)
      else checkFields language (language.bareName name :: seen) rest

/-- The first fault of a descriptor for a language, if it has one. -/
def Descriptor.check (descriptor : Descriptor) (language : Language) : Except Fault Unit :=
  match checkName language .type descriptor.typeName with
  | .error fault => .error fault
  | .ok _ => checkFields language [] descriptor.fieldNames

/-- Accept a descriptor for a language or report its first fault. -/
def Descriptor.validate (descriptor : Descriptor) (language : Language) :
    Except InvalidDescriptor Unit :=
  (descriptor.check language).mapError fun fault => { typeName := descriptor.typeName, fault }

end RecordText
