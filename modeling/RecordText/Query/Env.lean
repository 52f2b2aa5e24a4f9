import RecordText.Query.Scope

/-!
# Environments and evaluators

An environment gives the names in scope their meanings. A filter given as an
argument is a closure: a term with the names that were in scope at the call.

An evaluator knows the meaning of terms: which outputs a term has for an input,
and how the input changes when the places that the term denotes are replaced.
The functions that give a meaning to one kind of term are written against an
evaluator for its parts.
-/

namespace RecordText.Query

/-- A name with its meaning. -/
inductive Meaning where
  | variable (name : String) (value : Value)
  | filter (name : String) (params : List String) (body : Term) (env : List Meaning)
  | closure (name : String) (body : Term) (env : List Meaning)
  | label (name : String) (id : Nat)

/-- The names in scope with their meanings, the innermost first. -/
abbrev Env := List Meaning

namespace Env

/-- The value of a variable. -/
def lookup? (env : Env) (name : String) : Option Value :=
  env.findSome? fun
    | .variable other value => if other = name then some value else none
    | _ => none

/-- The number of a label. -/
def label? (env : Env) (name : String) : Option Nat :=
  env.findSome? fun
    | .label other id => if other = name then some id else none
    | _ => none

/-- The filter that a call means. -/
def filter? (env : Env) (name : String) (arity : Nat) : Option Meaning :=
  env.find? fun
    | .filter other params _ _ => other == name && params.length == arity
    | .closure other _ _ => other == name && arity == 0
    | _ => false

end Env

/-- The meaning of terms. A label is identified by the number of labels around it when it is
entered, so `labels` counts those entered so far. -/
structure Evaluator where
  /-- The outputs of a term for an input. -/
  run : (labels : Nat) → Env → Term → Value → Outputs
  /-- The input with every place that a term denotes replaced by what a filter makes of it. -/
  change : (labels : Nat) → Env → Term → Value → (Value → Outputs) → Outputs

/-- The error of an evaluation that goes on for too long. -/
def exhausted : Outputs :=
  .stop (.error (.string "evaluation does not end"))

/-- The error of an assignment to something that denotes no place. -/
def noPlace : Outputs :=
  .stop (.error (.string "invalid path expression"))

/-- The evaluator that gives up at once. -/
def Evaluator.exhausted : Evaluator where
  run _ _ _ _ := Query.exhausted
  change _ _ _ _ _ := Query.exhausted

namespace Evaluator

variable (e : Evaluator) (labels : Nat) (env : Env)

mutual

/-- Take a value apart and go on with the names of its parts. -/
def destructure (env : Env) : Pattern → Value → (Env → Outputs) → Outputs
  | .variable name, value, next => next (.variable name value :: env)
  | .array items, value, next => destructureItems env items 0 value next
  | .object entries, value, next => destructureEntries env entries value next

/-- Take the items of an array apart from a given position on. -/
def destructureItems (env : Env) : List Pattern → Nat → Value → (Env → Outputs) → Outputs
  | [], _, _, next => next env
  | item :: rest, position, value, next =>
    (Outputs.ofResult (value.index (.int position))).bind fun part =>
      destructure env item part fun env => destructureItems env rest (position + 1) value next

/-- Take the members of an object apart. -/
def destructureEntries (env : Env) :
    List (Term × Pattern) → Value → (Env → Outputs) → Outputs
  | [], _, next => next env
  | (key, pattern) :: rest, value, next =>
    (e.run labels env key value).bind fun k =>
      (Outputs.ofResult (value.index k)).bind fun part =>
        destructure env pattern part fun env => destructureEntries env rest value next

end

/-- Bind parameters to arguments and go on with the names: a parameter with a dollar sign stands for
each output of its argument, any other for the argument itself. -/
def bindParams (caller env : Env) : List String → List Term → Value → (Env → Outputs) → Outputs
  | param :: params, arg :: args, input, next =>
    match param.toList with
    | '$' :: name =>
      (e.run labels caller arg input).bind fun v =>
        bindParams caller (.variable (String.ofList name) v :: env) params args input next
    | _ => bindParams caller (.closure param arg caller :: env) params args input next
  | _, _, _, next => next env

/-- Find the term that a call means, with the names in scope there, and go on with it. -/
def enter (name : String) (args : List Term) (input : Value) (next : Env → Term → Outputs)
    (otherwise : Unit → Outputs) : Outputs :=
  match env.filter? name args.length with
  | some (.closure _ body outer) => next outer body
  | some (.filter _ params body outer) =>
    e.bindParams labels env (.filter name params body outer :: outer) params args input
      fun env => next env body
  | _ =>
    match preludeDefinition? name args.length with
    | some definition =>
      e.bindParams labels env [] definition.params args input fun env => next env definition.body
    | none => otherwise ()

/-- Compute an end of a range and go on with it. -/
def bound (bound? : Option Term) (origin : Value) (next : Option Value → Outputs) : Outputs :=
  match bound? with
  | none => next none
  | some term => (e.run labels env term origin).bind fun v => next (some v)

end Evaluator

end RecordText.Query
