import RecordText.Query.Assignment
import RecordText.Query.Reading

/-!
# Meaning of queries

The evaluator for terms of some depth is built from the evaluator for terms of
lesser depth. The depth counts nested terms and calls; going beyond it is an
error, which only a query that does not end runs into.
-/

namespace RecordText.Query

/-- The evaluator that allows a given depth of terms and calls. -/
def Evaluator.ofDepth : Nat → Evaluator
  | 0 => .exhausted
  | depth + 1 =>
    { run := fun labels env term input => (ofDepth depth).runTerm labels env term input
      change := fun labels env term input f => (ofDepth depth).changeTerm labels env term input f }

@[simp] theorem Evaluator.run_ofDepth_succ (depth labels : Nat) (env : Env) (term : Term)
    (input : Value) :
    (ofDepth (depth + 1)).run labels env term input =
      (ofDepth depth).runTerm labels env term input := rfl

/-- The outputs of a term for an input, up to a depth of terms and calls. -/
def Term.outputs (depth : Nat) (term : Term) (input : Value) : Outputs :=
  (Evaluator.ofDepth depth).run 0 [] term input

end RecordText.Query
