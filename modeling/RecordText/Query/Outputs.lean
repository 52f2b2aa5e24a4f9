import RecordText.Query.Value

/-!
# Outputs of a filter

A filter answers with any number of outcomes, one after the other. An outcome is
a value, an error, or the request to leave a labelled filter. Outcomes are
produced on demand: what nobody asks for is never computed.
-/

namespace RecordText.Query

/-- Why there is no value: an error, or the request to leave a labelled filter. -/
inductive Stop where
  | error (value : Value)
  | leave (label : Nat)
  deriving Repr

/-- One answer of a filter. -/
abbrev Outcome := Except Stop Value

/-- The answers of a filter, produced on demand. -/
inductive Outputs where
  | done
  | more (head : Outcome) (tail : Unit → Outputs)

namespace Outputs

/-- A single outcome. -/
def one (outcome : Outcome) : Outputs :=
  .more outcome fun _ => .done

/-- A single value. -/
def value (v : Value) : Outputs :=
  one (.ok v)

/-- A single stop. -/
def stop (reason : Stop) : Outputs :=
  one (.error reason)

/-- The result of a computation that may give an error value. -/
def ofResult (result : Except Value Value) : Outputs :=
  one (result.mapError .error)

/-- Values in order. -/
def ofList : List Value → Outputs
  | [] => .done
  | v :: rest => .more (.ok v) fun _ => ofList rest

/-- Some outputs followed by others. -/
def append : Outputs → (Unit → Outputs) → Outputs
  | done, next => next ()
  | more head tail, next => .more head fun _ => append (tail ()) next

/-- Apply a filter to every value; stops stay where they are. -/
def bind : Outputs → (Value → Outputs) → Outputs
  | done, _ => .done
  | more (.ok v) tail, f => append (f v) fun _ => bind (tail ()) f
  | more (.error reason) tail, f => .more (.error reason) fun _ => bind (tail ()) f

/-- Replace every error by the outputs of a filter on the error's value. -/
def rescue : Outputs → (Value → Outputs) → Outputs
  | done, _ => .done
  | more (.error (.error v)) tail, f => append (f v) fun _ => rescue (tail ()) f
  | more head tail, f => .more head fun _ => rescue (tail ()) f

/-- The outputs before the first request to leave a given label. -/
def within (label : Nat) : Outputs → Outputs
  | done => .done
  | more (.error (.leave other)) tail =>
    if other = label then .done else .more (.error (.leave other)) fun _ => within label (tail ())
  | more head tail => .more head fun _ => within label (tail ())

/-- The first outputs. -/
def take : Nat → Outputs → Outputs
  | 0, _ => .done
  | _ + 1, done => .done
  | n + 1, more head tail => .more head fun _ => take n (tail ())

/-- The outputs without the values that count as false. -/
def truthy : Outputs → Outputs
  | done => .done
  | more (.ok v) tail =>
    if v.isTrue then .more (.ok v) fun _ => truthy (tail ()) else truthy (tail ())
  | more head tail => .more head fun _ => truthy (tail ())

/-- The first output. -/
def first? : Outputs → Option Outcome
  | done => none
  | more head _ => some head

/-- Whether there is no output. -/
def isEmpty : Outputs → Bool
  | done => true
  | more _ _ => false

/-- All values in reverse behind those collected before, or the first stop. -/
def collectOnto (collected : List Value) : Outputs → Except Stop (List Value)
  | done => .ok collected
  | more (.ok v) tail => collectOnto (v :: collected) (tail ())
  | more (.error reason) _ => .error reason

/-- All values, or the first stop. -/
def collect (outputs : Outputs) : Except Stop (List Value) :=
  (collectOnto [] outputs).map List.reverse

/-- The last value, or the first stop. -/
def last (outputs : Outputs) : Outputs :=
  match collectOnto [] outputs with
  | .ok [] => .done
  | .ok (v :: _) => .value v
  | .error reason => .stop reason

/-- Feed every value of a filter into a state: the outputs of each step are the states that the
next step starts from, and all final states are the result. -/
def reduce : Outputs → (Value → Value → Outputs) → Value → Outputs
  | done, _, state => .value state
  | more (.ok v) tail, step, state => bind (step v state) fun next => reduce (tail ()) step next
  | more (.error reason) _, _, _ => .stop reason

/-- Feed every value of a filter into a state and show each state that arises. -/
def foreach : Outputs → (Value → Value → Outputs) → (Value → Value → Outputs) → Value → Outputs
  | done, _, _, _ => .done
  | more (.ok v) tail, step, view, state =>
    bind (step v state) fun next =>
      append (view v next) fun _ => foreach (tail ()) step view next
  | more (.error reason) _, _, _, _ => .stop reason

@[simp] theorem collect_value (v : Value) : (value v).collect = .ok [v] := rfl

end Outputs

end RecordText.Query
