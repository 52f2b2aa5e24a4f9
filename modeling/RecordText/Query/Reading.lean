import RecordText.Query.Env

/-!
# Outputs of terms

Where a term uses the outputs of several other terms, all combinations are
formed, those of the leftmost term varying slowest.
-/

namespace RecordText.Query

/-- The value of a number text: an integer if it fits, or the text itself. -/
def numberValue (text : String) : Value :=
  if text.toList.all Char.isDigit then
    let n := Json.digitsValue (text.toList.map Json.digitValue)
    if Value.fitsInt n then .int n else .decimal text
  else .decimal text

/-- Whether a comparison holds between two values. -/
def Comparison.holds (op : Comparison) (a b : Value) : Bool :=
  match op, Value.order a b with
  | .equal, order => order == .eq
  | .different, order => order != .eq
  | .less, order => order == .lt
  | .lessEqual, order => order != .gt
  | .greater, order => order == .gt
  | .greaterEqual, order => order != .lt

/-- Whether counting by a step goes on from a value. -/
def countsOn (value limit step : Value) : Bool :=
  match Value.order step (.int 0) with
  | .gt => Value.order value limit == .lt
  | .lt => Value.order value limit == .gt
  | .eq => Value.order value limit != .eq

/-- Count from a value by steps up to a limit. -/
def countFrom : (fuel : Nat) → (value limit step : Value) → Outputs
  | 0, _, _, _ => exhausted
  | fuel + 1, value, limit, step =>
    if countsOn value limit step then
      .more (.ok value) fun _ =>
        match Value.add value step with
        | .ok next => countFrom fuel next limit step
        | .error e => .stop (.error e)
    else .done

/-- The longest count. -/
def countFuel : Nat := 1000000

namespace Evaluator

variable (e : Evaluator) (labels : Nat) (env : Env)

/-- The items of an array with their keys. -/
def keyedItems (key : Term) : List Value → Except Stop Builtin.Keyed
  | [] => .ok []
  | item :: rest => do
    let keys ← (e.run labels env key item).collect
    let others ← keyedItems key rest
    return (keys, item) :: others

/-- The outputs of a filter that puts the items of an array in order by a key. -/
def runByKey (f : Builtin.Keyed → Value) (key : Term) (input : Value) : Outputs :=
  match Builtin.items input with
  | .error v => .stop (.error v)
  | .ok items =>
    match e.keyedItems labels env key items with
    | .ok keyed => .value (f keyed)
    | .error reason => .stop reason

/-- The first outputs of a filter, as many as another one says. -/
def runLimit (count f : Term) (input : Value) : Outputs :=
  (e.run labels env count input).bind fun n =>
    match n.int? with
    | .ok n => if 0 < n then (e.run labels env f input).take n.toNat else .done
    | .error v => .stop (.error v)

/-- The numbers from one output to another by the steps of a third. -/
def runRange (start limit step : Term) (input : Value) : Outputs :=
  (e.run labels env start input).bind fun a =>
    (e.run labels env limit input).bind fun b =>
      (e.run labels env step input).bind fun c => countFrom countFuel a b c

/-- The outputs of a built-in filter. -/
def runBuiltin (name : String) (args : List Term) (input : Value) : Outputs :=
  match name, args with
  | "empty", [] => .done
  | "first", [f] => (e.run labels env f input).take 1
  | "last", [f] => (e.run labels env f input).last
  | "limit", [count, f] => e.runLimit labels env count f input
  | "range", [start, limit, step] => e.runRange labels env start limit step input
  | _, [] =>
    match Builtin.noArgs? name with
    | some f => .ofResult (f input)
    | none => noPlace
  | _, [arg] =>
    match Builtin.oneArg? name, Builtin.byKey? name with
    | some f, _ => (e.run labels env arg input).bind fun v => .ofResult (f input v)
    | none, some f => e.runByKey labels env f arg input
    | none, none => noPlace
  | _, _ => noPlace

/-- The outputs of a call. -/
def runCall (name : String) (args : List Term) (input : Value) : Outputs :=
  e.enter labels env name args input
    (fun env body => e.run labels env body input)
    (fun _ => e.runBuiltin labels env name args input)

/-- The texts that pieces make up. -/
def runText (format : Option String) (input : Value) : List Piece → Outputs
  | [] => .value (.string "")
  | .chars text :: rest =>
    (runText format input rest).bind fun v => .value (.string (text ++ v.plainText))
  | .term body :: rest =>
    (e.run labels env body input).bind fun v =>
      (e.runCall labels env (format.getD "tostring") [] v).bind fun piece =>
        (runText format input rest).bind fun v =>
          .value (.string (piece.plainText ++ v.plainText))

/-- The objects with some members and those of the entries. -/
def runEntries (input : Value) (members : List (String × Value)) :
    List (Term × Term) → Outputs
  | [] => .value (.object members)
  | (key, value) :: rest =>
    (e.run labels env key input).bind fun k =>
      (e.run labels env value input).bind fun v =>
        match k with
        | .string name => runEntries input (setKey members name v) rest
        | other => .ofResult (Value.wrongKind other "string")

/-- The outputs of the first case whose test holds. -/
def runCases (otherwise : Option Term) (input : Value) : List (Term × Term) → Outputs
  | [] =>
    match otherwise with
    | none => .value input
    | some term => e.run labels env term input
  | (test, body) :: rest =>
    (e.run labels env test input).bind fun v =>
      if v.isTrue then e.run labels env body input else runCases otherwise input rest

/-- The outputs of an operator. -/
def runBinary (left : Term) (op : Operator) (right : Term) (input : Value) : Outputs :=
  match op with
  | .arithmetic op =>
    (e.run labels env left input).bind fun a =>
      (e.run labels env right input).bind fun b => .ofResult (Value.calculate op a b)
  | .comparison op =>
    (e.run labels env left input).bind fun a =>
      (e.run labels env right input).bind fun b => .value (.bool (op.holds a b))
  | .both =>
    (e.run labels env left input).bind fun a =>
      if a.isTrue then (e.run labels env right input).bind fun b => .value (.bool b.isTrue)
      else .value (.bool false)
  | .either =>
    (e.run labels env left input).bind fun a =>
      if a.isTrue then .value (.bool true)
      else (e.run labels env right input).bind fun b => .value (.bool b.isTrue)
  | .alternative =>
    match (e.run labels env left input).truthy with
    | .done => e.run labels env right input
    | found => found
  | .assign =>
    (e.run labels env right input).bind fun new =>
      e.change labels env left input fun _ => .value new
  | .update => e.change labels env left input fun old => e.run labels env right old
  | .updateArithmetic op =>
    (e.run labels env right input).bind fun b =>
      e.change labels env left input fun a => .ofResult (Value.calculate op a b)
  | .updateAlternative =>
    (e.run labels env right input).bind fun b =>
      e.change labels env left input fun a => .value (if a.isTrue then a else b)

/-- The parts of a value that a path leads to; keys and bounds are computed from `origin`. -/
def runPath (origin : Value) : List Part → Value → Outputs
  | [], value => .value value
  | .index key optional :: rest, value =>
    (e.run labels env key origin).bind fun k =>
      match value.index k with
      | .ok v => runPath origin rest v
      | .error v => if optional then .done else .stop (.error v)
  | .slice from? upto? optional :: rest, value =>
    e.bound labels env from? origin fun start =>
      e.bound labels env upto? origin fun stop =>
        match value.slice { from? := start, upto? := stop } with
        | .ok v => runPath origin rest v
        | .error v => if optional then .done else .stop (.error v)
  | .each optional :: rest, value =>
    match value.parts with
    | .ok values => (Outputs.ofList values).bind fun v => runPath origin rest v
    | .error v => if optional then .done else .stop (.error v)

/-- One step of a fold: take the value apart, then run a term on the state. -/
def foldStep (pattern : Pattern) (step : Term) (v state : Value) : Outputs :=
  e.destructure labels env pattern v fun env => e.run labels env step state

/-- What a fold shows of a state. -/
def foldView (pattern : Pattern) (view : Option Term) (v state : Value) : Outputs :=
  match view with
  | none => .value state
  | some view => e.foldStep labels env pattern view v state

/-- The outputs of a term, given an evaluator for its parts. -/
def runTerm (term : Term) (input : Value) : Outputs :=
  match term with
  | .identity => .value input
  | .recurse => e.runCall labels env "recurse" [] input
  | .number text => .value (numberValue text)
  | .text format pieces => e.runText labels env format input pieces
  | .array none => .value (.array [])
  | .array (some body) =>
    match (e.run labels env body input).collect with
    | .ok items => .value (.array items)
    | .error reason => .stop reason
  | .object entries => e.runEntries labels env input [] entries
  | .negate body => (e.run labels env body input).bind fun v => .ofResult v.negate
  | .pipe left right => (e.run labels env left input).bind fun v => e.run labels env right v
  | .comma left right =>
    (e.run labels env left input).append fun _ => e.run labels env right input
  | .binary left op right => e.runBinary labels env left op right input
  | .bind source pattern body =>
    (e.run labels env source input).bind fun v =>
      e.destructure labels env pattern v fun env => e.run labels env body input
  | .label name body =>
    (e.run (labels + 1) (.label name labels :: env) body input).within labels
  | .leave name =>
    match env.label? name with
    | some id => .stop (.leave id)
    | none => noPlace
  | .reduce source pattern start step =>
    (e.run labels env start input).bind fun state =>
      (e.run labels env source input).reduce (e.foldStep labels env pattern step) state
  | .foreach source pattern start step view =>
    (e.run labels env start input).bind fun state =>
      (e.run labels env source input).foreach (e.foldStep labels env pattern step)
        (e.foldView labels env pattern view) state
  | .attempt body handler =>
    (e.run labels env body input).rescue fun v =>
      match handler with
      | none => .done
      | some handler => e.run labels env handler v
  | .cond cases otherwise => e.runCases labels env otherwise input cases
  | .define name params body rest =>
    e.run labels (.filter name params body env :: env) rest input
  | .call name args => e.runCall labels env name args input
  | .variable name =>
    match env.lookup? name with
    | some v => .value v
    | none => noPlace
  | .path base parts =>
    (e.run labels env base input).bind fun v => e.runPath labels env input parts v

end Evaluator

end RecordText.Query
