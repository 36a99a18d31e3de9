/-
From values to data.  A row that fits a schema nearly always has a datum; a number can be too
large for floating point, and a field that is missing must have a default or a type that names
null outright.

A value of a union goes to the first branch it fits, with two exceptions: of several records the
one with most of the value's fields is taken, and `double` is preferred to a `float` before it.
-/
import StreamTable.Avro.Datum
import StreamTable.Avro.Validation
import StreamTable.Value.Floating

namespace StreamTable
namespace Avro
namespace Datum

/-! ## Branches of unions -/

/-- The fields of a record type, also of one that is referred to by name. -/
def recordFields? (defs : Definitions) : Schema → Option (List Field)
  | .record false _ members _ => some members
  | .named name =>
    match defs.find? name with
    | some (.record false _ members _) => some members
    | _ => none
  | _ => none

def isType (p : Primitive) : Schema → Bool
  | .primitive q => p = q
  | .annotated q _ => p = q
  | _ => false

/-- The names of fields, each once. -/
def distinctNames : List Field → Except DataFault (List Value)
  | [] => .ok []
  | (f, _) :: rest => do
    if !f.name.isHashable then throw .wrongType
    let names ← distinctNames rest
    pure (if names.any (f.name.same ·) then names else f.name :: names)

/-- How many of the names a value has an entry for. -/
def countHeld (names : List Value) (v : Value) : Nat :=
  match v with
  | .map es => names.countP fun n => (Value.lookup es n).isSome
  | _ => 0

/-- The best branch so far. -/
structure Choice where
  index : Option Nat
  /-- How many fields of the best record the value has. -/
  held : Option Nat

def Choice.none : Choice := ⟨.none, .none⟩

/-- The place of the first `double` at or after a place. -/
def doubleFrom? : Nat → List Schema → Option Nat
  | _, [] => none
  | i, s :: rest => if isType .double s then some i else doubleFrom? (i + 1) rest

/-- Whether a record with so many of the value's fields is better than the best one so far. -/
def isBetter (held : Nat) : Option Nat → Bool
  | some best => held > best
  | none => true

/-- Look through the branches of a union for the one that a value goes to. -/
def chooseFrom (defs : Definitions) (v : Value) :
    Nat → List Schema → Choice → Except DataFault Choice
  | _, [], best => .ok best
  | i, s :: rest, best => do
    if ← Validation.check defs maxNesting s "" v then
      match recordFields? defs s with
      | some members =>
        let held := countHeld (← distinctNames members) v
        chooseFrom defs v (i + 1) rest
          (if isBetter held best.held then ⟨some i, some held⟩ else best)
      | none =>
        if isType .float s then pure ⟨some ((doubleFrom? (i + 1) rest).getD i), none⟩
        else pure ⟨some i, none⟩
    else chooseFrom defs v (i + 1) rest best

def namedBranch? (name : Value) : Nat → List Schema → Option Nat
  | _, [] => none
  | i, s :: rest =>
    if Validation.branchNameIs s name then some i else namedBranch? name (i + 1) rest

/-- The branch that a value of a union goes to, and the value that is written there.  A pair names
its branch. -/
def choose (defs : Definitions) (branches : List Schema) (v : Value) :
    Except DataFault (Nat × Value) :=
  match v with
  | .tuple [name, v] =>
    match namedBranch? name 0 branches with
    | some i => .ok (i, v)
    | none => .error .wrongValue
  | .tuple _ => .error .wrongValue
  | v => do
    match (← chooseFrom defs v 0 branches .none).index with
    | some i => pure (i, v)
    | none => throw .wrongValue

/-! ## Writing -/

/-- Whether a type names null outright: as its name or a part of it, or as a branch. -/
def namesNull (s : Schema) : Bool :=
  match s.toValue with
  | .str name => Text.occursIn "null".toList name.toList
  | .list xs => xs.any (·.isText "null")
  | .map es => es.any (·.1.isText "null")
  | _ => false

def symbolIndex (symbols v : Value) : Except DataFault Nat :=
  let place (xs : List Value) : Except DataFault Nat :=
    match xs.findIdx? (v.same ·) with
    | some i => .ok i
    | none => .error .wrongValue
  match symbols with
  | .str t =>
    match v with
    | .str s =>
      match Text.indexIn? s.toList t.toList with
      | some i => .ok i
      | none => .error .wrongValue
    | _ => .error .wrongType
  | .list xs => place xs
  | .tuple xs => place xs
  | _ => .error .noSuchAttribute

def ofPrimitive (p : Primitive) (v : Value) : Except DataFault Datum :=
  match p, v with
  | .null, _ => .ok .null
  | .boolean, v => .ok (.bool v.isTruthy)
  | .float, v => do
    let x ← v.toDouble
    pure (.single x.toSingle)
  | .double, v => do
    let x ← v.toDouble
    pure (.double x)
  | .bytes, .bytes b => .ok (.bytes b)
  | .bytes, .bytearray b => .ok (.bytes b)
  | .string, .str s => .ok (.text s)
  | .int, v =>
    match v.asInt? with
    | some n => .ok (.int n)
    | none => .error .wrongType
  | .long, v =>
    match v.asInt? with
    | some n => .ok (.int n)
    | none => .error .wrongType
  | _, _ => .error .wrongType

/-- The value that is written for a field: its entry, or the default. -/
def fieldValue (row : List (Value × Value)) (f : FieldHead) (s : Schema) :
    Except DataFault Value :=
  if !f.name.isHashable then .error .wrongType
  else
    match Value.lookup row f.name with
    | some v => .ok v
    | none =>
      match f.default? with
      | some d => .ok d
      | none => if namesNull s then .ok .null else .error .wrongValue

/-- What writing needs to know of the schema as a whole. -/
structure Scope where
  /-- The datum of a value of a named type. -/
  resolve : String → Value → Except DataFault Datum
  /-- The branch that a value of a union goes to. -/
  choose : List Schema → Value → Except DataFault (Nat × Value)

mutual

def writeWith (scope : Scope) : Schema → Value → Except DataFault Datum
  | .primitive p, v => ofPrimitive p v
  | .named name, v => scope.resolve name v
  | .annotated p attrs, v =>
    match Logical.of? p attrs with
    | some l => do
      let v ← l.prepare attrs v
      ofPrimitive p v
    | none => ofPrimitive p v
  | .array item _, v =>
    match Validation.items? v with
    | some xs => do
      let ds ← xs.mapM (writeWith scope item)
      pure (.items ds)
    | none => .error .wrongType
  | .map values _, v =>
    match v with
    | .map es => do
      let ds ← es.mapM fun e => do
        let d ← writeWith scope values e.2
        pure (e.1.text, d)
      pure (.entries ds)
    | _ => .error .noSuchAttribute
  | .enum _ symbols _, v => do
    let i ← symbolIndex symbols v
    pure (.symbol i)
  | .fixed _ size attrs, v => do
    match ← Logical.prepareFixed size attrs v with
    | .bytes b => if size.same (.int b.length) then pure (.fixed b) else throw .wrongValue
    | _ => throw .wrongType
  | .record _ _ members _, v =>
    match v with
    | .map row => do
      let ds ← writeFields scope members row
      pure (.fields ds)
    | _ => .error .wrongType
  | .union branches, v => do
    let (i, v) ← scope.choose branches v
    let d ← writeBranch scope branches i v
    pure (.branch i d)
  | .unchecked _, _ => .error .wrongType

def writeFields (scope : Scope) :
    List (FieldHead × Schema) → List (Value × Value) → Except DataFault (List Datum)
  | [], _ => .ok []
  | (f, s) :: rest, row => do
    let v ← fieldValue row f s
    let d ← writeWith scope s v
    let ds ← writeFields scope rest row
    pure (d :: ds)

def writeBranch (scope : Scope) : List Schema → Nat → Value → Except DataFault Datum
  | [], _, _ => .error .badIndex
  | s :: _, 0, v => writeWith scope s v
  | _ :: rest, i + 1, v => writeBranch scope rest i v

end

/-- The datum of a value, given the definitions of named types and how many look-ups may follow
one another. -/
def write (defs : Definitions) : Nat → Schema → Value → Except DataFault Datum
  | 0 => fun _ _ => .error .tooDeep
  | fuel + 1 => writeWith
    { resolve := fun name v =>
        match defs.find? name with
        | some s => write defs fuel s v
        | none => .error (.missingKey (.str name))
      choose := choose defs }

end Datum
end Avro
end StreamTable
