/-
From data back to values.  Records come back as maps in the schema's field order, and raw values of
logical types as what they stand for.
-/
import StreamTable.Avro.Datum
import StreamTable.Avro.Logical
import StreamTable.Avro.Validation

namespace StreamTable
namespace Avro
namespace Datum

/-- The raw value of a datum that has no parts. -/
def raw : Datum → Value
  | .bool b => .bool b
  | .int n => .int n
  | .single x => .float x
  | .double x => .float x
  | .bytes b => .bytes b
  | .text s => .str s
  | .fixed b => .bytes b
  | _ => .null

def symbolAt (symbols : Value) (i : Nat) : Except DataFault Value :=
  match symbols with
  | .map _ => .error (.missingKey (.int i))
  | .set _ => .error .wrongType
  | symbols =>
    match symbols.elements?.bind (·[i]?) with
    | some v => .ok v
    | none => .error .badIndex

mutual

/-- The value of a datum, named types being read by `resolve`. -/
def readWith (resolve : String → Datum → Except DataFault Value) :
    Schema → Datum → Except DataFault Value
  | .primitive _, d => .ok d.raw
  | .named name, d => resolve name d
  | .annotated p attrs, d =>
    match Logical.of? p attrs with
    | some l => l.convert attrs d.raw
    | none => .ok d.raw
  | .array item _, d =>
    match d with
    | .items ds => do
      let vs ← ds.mapM (readWith resolve item)
      pure (.list vs)
    | _ => .error .wrongType
  | .map values _, d =>
    match d with
    | .entries es => do
      let vs ← es.mapM fun e => do
        let v ← readWith resolve values e.2
        pure (Value.entry e.1 v)
      pure (Value.ofPairs vs)
    | _ => .error .wrongType
  | .enum _ symbols _, d =>
    match d with
    | .symbol i => symbolAt symbols i
    | _ => .error .wrongType
  | .fixed _ _ attrs, d =>
    if Logical.isFixedDecimal attrs then Logical.convert .decimal attrs d.raw else .ok d.raw
  | .record _ _ members _, d =>
    match d with
    | .fields ds => do
      let row ← readFields resolve members ds
      pure (Value.ofPairs row)
    | _ => .error .wrongType
  | .union branches, d =>
    match d with
    | .branch i d => readBranch resolve branches i d
    | _ => .error .wrongType
  | .unchecked _, _ => .error .wrongType

def readFields (resolve : String → Datum → Except DataFault Value) :
    List (FieldHead × Schema) → List Datum → Except DataFault (List (Value × Value))
  | (f, s) :: rest, d :: ds => do
    let v ← readWith resolve s d
    let row ← readFields resolve rest ds
    pure ((f.name, v) :: row)
  | _, _ => .ok []

def readBranch (resolve : String → Datum → Except DataFault Value) :
    List Schema → Nat → Datum → Except DataFault Value
  | [], _, _ => .error .badIndex
  | s :: _, 0, d => readWith resolve s d
  | _ :: rest, i + 1, d => readBranch resolve rest i d

end

/-- The value of a datum, given the definitions of named types and how many look-ups may follow
one another. -/
def read (defs : Definitions) : Nat → Schema → Datum → Except DataFault Value
  | 0 => fun _ _ => .error .tooDeep
  | fuel + 1 => readWith fun name d =>
    match defs.find? name with
    | some s => read defs fuel s d
    | none => .error (.missingKey (.str name))

end Datum
end Avro
end StreamTable
