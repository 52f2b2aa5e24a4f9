import RecordText.Query.Env

/-!
# Assignment to places

A term on the left of an assignment denotes places of the input. The places are
visited one after the other, and each is replaced by what a filter makes of it.
Terms that compute new values denote no place.
-/

namespace RecordText.Query.Evaluator

variable (e : Evaluator) (labels : Nat) (env : Env)

/-- The change in the first case whose test holds. -/
def changeCases (otherwise : Option Term) (f : Value → Outputs) :
    List (Term × Term) → Value → Outputs
  | [], input =>
    match otherwise with
    | none => f input
    | some term => e.change labels env term input f
  | (test, body) :: rest, input =>
    (e.run labels env test input).reduce
      (fun v state =>
        if v.isTrue then e.change labels env body state f
        else changeCases otherwise f rest state)
      input

/-- The change of the places that a call denotes. -/
def changeCall (name : String) (args : List Term) (input : Value) (f : Value → Outputs) :
    Outputs :=
  e.enter labels env name args input
    (fun env body => e.change labels env body input f)
    (fun _ =>
      match name, args with
      | "empty", [] => .value input
      | "error", [] => .stop (.error input)
      | _, _ => noPlace)

/-- The change of the parts that a path leads to; keys and bounds are computed from `origin`. -/
def changePath (origin : Value) (f : Value → Outputs) : List Part → Value → Outputs
  | [], value => f value
  | .index key optional :: rest, value =>
    (e.run labels env key origin).reduce
      (fun k state => .one (state.mapIndex k optional fun v => changePath origin f rest v))
      value
  | .slice from? upto? optional :: rest, value =>
    e.bound labels env from? origin fun start =>
      e.bound labels env upto? origin fun stop =>
        .one (value.mapSlice { from? := start, upto? := stop } optional fun v =>
          changePath origin f rest v)
  | .each optional :: rest, value =>
    .one (value.mapParts optional fun v => changePath origin f rest v)

/-- The change of the places that a term denotes, given an evaluator for its parts. -/
def changeTerm (term : Term) (input : Value) (f : Value → Outputs) : Outputs :=
  match term with
  | .identity => f input
  | .recurse => e.changeCall labels env "recurse" [] input f
  | .pipe left right =>
    e.change labels env left input fun v => e.change labels env right v f
  | .comma left right =>
    (e.change labels env left input f).bind fun v => e.change labels env right v f
  | .bind source pattern body =>
    (e.run labels env source input).reduce
      (fun v state =>
        e.destructure labels env pattern v fun env => e.change labels env body state f)
      input
  | .cond cases otherwise => e.changeCases labels env otherwise f cases input
  | .binary left .alternative right =>
    match (e.run labels env left input).truthy with
    | .done => e.change labels env right input f
    | _ => e.change labels env left input f
  | .label name body =>
    (e.change (labels + 1) (.label name labels :: env) body input f).within labels
  | .leave name =>
    match env.label? name with
    | some id => .stop (.leave id)
    | none => noPlace
  | .attempt body _ => (e.change labels env body input f).rescue fun _ => .value input
  | .define name params body rest =>
    e.change labels (.filter name params body env :: env) rest input f
  | .call name args => e.changeCall labels env name args input f
  | .path base parts =>
    e.change labels env base input fun v => e.changePath labels env input f parts v
  | _ => noPlace

end RecordText.Query.Evaluator
