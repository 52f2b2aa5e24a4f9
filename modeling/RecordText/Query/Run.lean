import RecordText.Query.Eval

/-!
# Running queries

A query is run on a JSON value and gives JSON values. Its text has to be a term,
all names have to be in scope, and no output may be an error. An output is
written as text and read back, so that numbers which are no JSON numbers are
noticed.
-/

namespace RecordText.Query

/-- Why a query gives no result. -/
inductive Failure where
  | parse
  | undefined
  | runtime
  | notJson
  deriving DecidableEq, Repr

/-- The words for a failure. -/
def Failure.message : Failure → String
  | parse => "jq parse"
  | undefined => "jq undefined"
  | runtime => "jq runtime"
  | notJson => "jq not json"

/-- The depth of terms and calls that a run allows. -/
def runDepth : Nat := 1000000

/-- Read the outputs back as JSON values, behind those read before, in reverse. -/
def readBackOnto (read : List Json) : Outputs → Except Failure (List Json)
  | .done => .ok read.reverse
  | .more (.error _) _ => .error .runtime
  | .more (.ok v) tail =>
    match Json.parseChars? v.chars with
    | none => .error .notJson
    | some json => readBackOnto (json :: read) (tail ())

/-- Run a term. -/
def Term.run (term : Term) (input : Json) : Except Failure (List Json) :=
  readBackOnto [] (term.outputs runDepth (Value.ofJson input))

/-- Run the text of a query. -/
def run (text : String) (input : Json) : Except Failure (List Json) :=
  match Term.parse? text with
  | none => .error .parse
  | some term => if term.scoped {} then term.run input else .error .undefined

end RecordText.Query
