/-
Plain values as rows.  A text, number, boolean, bytes, point in time, or a map of texts to one
kind of these is stored as a record of one field; its schema can be read off the value.
-/
import StreamTable.Json.Printer
import StreamTable.Record.FieldName

namespace StreamTable
namespace PlainValue

def recordName : String := "PrimitiveRecord"

def logicalNode (type logical : String) : Value :=
  Value.ofFields [("type", .str type), ("logicalType", .str logical)]

/-- The type node of a scalar, and the value that is stored for it. -/
def scalar : Value → Except Failure (Value × Value)
  | .bool b => .ok (.str "boolean", .bool b)
  | .int n => .ok (.str "long", .int n)
  | .float x => .ok (.str "double", .float x)
  | .str s => .ok (.str "string", .str s)
  | .bytes b => .ok (.str "bytes", .bytes b)
  | .bytearray b => .ok (.str "bytes", .bytes b)
  | .datetime t => .ok (logicalNode "long" "timestamp-millis", .datetime t)
  | .date d => .ok (logicalNode "int" "date", .date d)
  | .time t => .ok (logicalNode "int" "time-millis", .time t)
  | v => .error (.primitive (.unsupported v.typeName))

/-- The type nodes of the values of a map, and the entries that are stored. -/
def scalars : List (Value × Value) → Except Failure (List Value × List (Value × Value))
  | [] => .ok ([], [])
  | (k, v) :: es => do
    let (type, stored) ← scalar v
    let (types, entries) ← scalars es
    pure (type :: types, (k, stored) :: entries)

def mapNode (values : Value) : Value := Value.ofFields [("type", .str "map"), ("values", values)]

/-- The type node of a plain value, and the value that is stored for it. -/
def typed : Value → Except Failure (Value × Value)
  | .map es =>
    if !es.all (·.1.isStr) then .error (.primitive .keyNotText)
    else do
      let (types, stored) ← scalars es
      match types with
      | [] => pure (mapNode (.str "string"), .map [])
      | type :: rest =>
        if rest.all (·.same type) then pure (mapNode type, .map stored)
        else throw (.primitive .mixedValues)
  | v => scalar v

/-- The node of the record that holds values of a type in one field. -/
def wrappingNode (type : Value) (fieldName : String) : Value :=
  Value.ofFields [("type", .str "record"), ("name", .str recordName),
    ("fields", .list [Value.ofFields [("name", .str fieldName), ("type", type)]])]

def node (v : Value) (fieldName : String) : Except Failure Value := do
  let (type, _) ← typed v
  pure (wrappingNode type fieldName)

def descriptor (v : Value) (fieldName : String) : Except Failure String := do
  let n ← node v fieldName
  match Json.print? n with
  | some text => pure text
  | none => throw (.data .wrongType)

def row (v : Value) (fieldName : String) : Except Failure Value :=
  match v with
  | .null => .error (.primitive .null)
  | v => do
    let (_, stored) ← typed v
    pure (Value.ofFields [(fieldName, stored)])

end PlainValue
end StreamTable
