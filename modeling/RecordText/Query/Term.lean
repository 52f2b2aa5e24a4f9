import RecordText.Query.Arithmetic

/-!
# Query terms

A query is a term. Terms denote filters: given an input they have any number of
outputs. This module holds the terms and nothing about their meaning.
-/

namespace RecordText.Query

/-- The comparison operators. -/
inductive Comparison where
  | equal
  | different
  | less
  | lessEqual
  | greater
  | greaterEqual
  deriving DecidableEq, Repr

/-- The operators between two terms, apart from those that only pass outputs on. -/
inductive Operator where
  | arithmetic (op : Arithmetic)
  | comparison (op : Comparison)
  | both
  | either
  | alternative
  | assign
  | update
  | updateArithmetic (op : Arithmetic)
  | updateAlternative
  deriving DecidableEq, Repr

mutual

/-- A term of a query. -/
inductive Term where
  | identity
  | recurse
  | number (text : String)
  | text (format : Option String) (pieces : List Piece)
  | array (body : Option Term)
  | object (entries : List (Term × Term))
  | negate (body : Term)
  | pipe (left right : Term)
  | comma (left right : Term)
  | binary (left : Term) (op : Operator) (right : Term)
  | bind (source : Term) (pattern : Pattern) (body : Term)
  | label (name : String) (body : Term)
  | leave (name : String)
  | reduce (source : Term) (pattern : Pattern) (start step : Term)
  | foreach (source : Term) (pattern : Pattern) (start step : Term) (view : Option Term)
  | attempt (body : Term) (handler : Option Term)
  | cond (cases : List (Term × Term)) (otherwise : Option Term)
  | define (name : String) (params : List String) (body rest : Term)
  | call (name : String) (args : List Term)
  | variable (name : String)
  | path (base : Term) (parts : List Part)

/-- A piece of a text: characters, or a term whose outputs are put in their place. -/
inductive Piece where
  | chars (text : String)
  | term (body : Term)

/-- A pattern that takes a value apart and names its parts. -/
inductive Pattern where
  | variable (name : String)
  | array (items : List Pattern)
  | object (entries : List (Term × Pattern))

/-- A step of a path: a key or index, a range, or each part. -/
inductive Part where
  | index (key : Term) (optional : Bool)
  | slice (from? upto? : Option Term) (optional : Bool)
  | each (optional : Bool)

end

/-- The term of a plain text. -/
def Term.ofText (text : String) : Term :=
  .text none [.chars text]

/-- The term that reads the part under a key of the input. -/
def Term.key (key : Term) : Term :=
  .path .identity [.index key false]

/-- A path step that tolerates failure. -/
def Part.optional : Part → Part
  | index key _ => .index key true
  | slice from? upto? _ => .slice from? upto? true
  | each _ => .each true

end RecordText.Query
