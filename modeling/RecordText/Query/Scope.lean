import RecordText.Query.Builtin
import RecordText.Query.Prelude

/-!
# Names in scope

Before a query runs, every filter, variable and label that it uses has to be in
scope: defined around the place of use, a parameter, or built in. Filters are
told apart by their number of arguments.
-/

namespace RecordText.Query

/-- The names in scope. -/
structure Scope where
  filters : List (String × Nat) := []
  bound : List String := []
  labels : List String := []

namespace Scope

/-- The scope with one more filter. -/
def addFilter (scope : Scope) (name : String) (arity : Nat) : Scope :=
  { scope with filters := (name, arity) :: scope.filters }

/-- The scope with more variables. -/
def addVariables (scope : Scope) (names : List String) : Scope :=
  { scope with bound := names ++ scope.bound }

/-- The scope with one more label. -/
def addLabel (scope : Scope) (name : String) : Scope :=
  { scope with labels := name :: scope.labels }

/-- The scope with a parameter, which stands for a value if it has a dollar sign. -/
def addParam (scope : Scope) (param : String) : Scope :=
  match param.toList with
  | '$' :: name => scope.addVariables [String.ofList name]
  | _ => scope.addFilter param 0

/-- Whether a filter can be called. -/
def hasFilter (scope : Scope) (name : String) (arity : Nat) : Bool :=
  scope.filters.contains (name, arity) || Builtin.isKnown name arity ||
    (preludeDefinition? name arity).isSome

end Scope

mutual

/-- The variables of a pattern. -/
def Pattern.boundNames : Pattern → List String
  | .variable name => [name]
  | .array items => Pattern.itemVariables items
  | .object entries => Pattern.entryVariables entries

/-- The variables of patterns. -/
def Pattern.itemVariables : List Pattern → List String
  | [] => []
  | item :: rest => item.boundNames ++ Pattern.itemVariables rest

/-- The variables of the entries of an object pattern. -/
def Pattern.entryVariables : List (Term × Pattern) → List String
  | [] => []
  | (_, pattern) :: rest => pattern.boundNames ++ Pattern.entryVariables rest

end

mutual

/-- Whether all names of a term are in scope. -/
def Term.scoped (scope : Scope) : Term → Bool
  | .identity => true
  | .recurse => true
  | .number _ => true
  | .text format pieces =>
    (match format with
      | none => true
      | some name => scope.hasFilter name 0) && Piece.allScoped scope pieces
  | .array none => true
  | .array (some body) => body.scoped scope
  | .object entries => Term.pairsScoped scope entries
  | .negate body => body.scoped scope
  | .pipe left right => left.scoped scope && right.scoped scope
  | .comma left right => left.scoped scope && right.scoped scope
  | .binary left _ right => left.scoped scope && right.scoped scope
  | .bind source pattern body =>
    source.scoped scope && pattern.scoped scope &&
      body.scoped (scope.addVariables pattern.boundNames)
  | .label name body => body.scoped (scope.addLabel name)
  | .leave name => scope.labels.contains name
  | .reduce source pattern start step =>
    source.scoped scope && pattern.scoped scope && start.scoped scope &&
      step.scoped (scope.addVariables pattern.boundNames)
  | .foreach source pattern start step none =>
    source.scoped scope && pattern.scoped scope && start.scoped scope &&
      step.scoped (scope.addVariables pattern.boundNames)
  | .foreach source pattern start step (some view) =>
    source.scoped scope && pattern.scoped scope && start.scoped scope &&
      step.scoped (scope.addVariables pattern.boundNames) &&
      view.scoped (scope.addVariables pattern.boundNames)
  | .attempt body none => body.scoped scope
  | .attempt body (some handler) => body.scoped scope && handler.scoped scope
  | .cond cases none => Term.pairsScoped scope cases
  | .cond cases (some otherwise) => Term.pairsScoped scope cases && otherwise.scoped scope
  | .define name params body rest =>
    let outer := scope.addFilter name params.length
    body.scoped (params.foldl Scope.addParam outer) && rest.scoped outer
  | .call name args => scope.hasFilter name args.length && Term.allScoped scope args
  | .variable name => scope.bound.contains name
  | .path base parts => base.scoped scope && Part.allScoped scope parts

/-- Whether all names of some terms are in scope. -/
def Term.allScoped (scope : Scope) : List Term → Bool
  | [] => true
  | term :: rest => term.scoped scope && Term.allScoped scope rest

/-- Whether all names of some pairs of terms are in scope. -/
def Term.pairsScoped (scope : Scope) : List (Term × Term) → Bool
  | [] => true
  | (first, second) :: rest =>
    first.scoped scope && second.scoped scope && Term.pairsScoped scope rest

/-- Whether all names of some pieces are in scope. -/
def Piece.allScoped (scope : Scope) : List Piece → Bool
  | [] => true
  | .chars _ :: rest => Piece.allScoped scope rest
  | .term body :: rest => body.scoped scope && Piece.allScoped scope rest

/-- Whether all names that a pattern uses are in scope. -/
def Pattern.scoped (scope : Scope) : Pattern → Bool
  | .variable _ => true
  | .array items => Pattern.allScoped scope items
  | .object entries => Pattern.entriesScoped scope entries

/-- Whether all names that some patterns use are in scope. -/
def Pattern.allScoped (scope : Scope) : List Pattern → Bool
  | [] => true
  | item :: rest => item.scoped scope && Pattern.allScoped scope rest

/-- Whether all names that the entries of an object pattern use are in scope. -/
def Pattern.entriesScoped (scope : Scope) : List (Term × Pattern) → Bool
  | [] => true
  | (key, pattern) :: rest =>
    key.scoped scope && pattern.scoped scope && Pattern.entriesScoped scope rest

/-- Whether all names of the steps of a path are in scope. -/
def Part.allScoped (scope : Scope) : List Part → Bool
  | [] => true
  | .index key _ :: rest => key.scoped scope && Part.allScoped scope rest
  | .slice none none _ :: rest => Part.allScoped scope rest
  | .slice (some start) none _ :: rest => start.scoped scope && Part.allScoped scope rest
  | .slice none (some stop) _ :: rest => stop.scoped scope && Part.allScoped scope rest
  | .slice (some start) (some stop) _ :: rest =>
    start.scoped scope && stop.scoped scope && Part.allScoped scope rest
  | .each _ :: rest => Part.allScoped scope rest

end

end RecordText.Query
