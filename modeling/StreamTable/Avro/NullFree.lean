/-
Null-free projections.  Rows that come as JSON text are read against a schema without nulls: a
union loses its null branches, a union of one branch becomes that branch, and a field whose type
is no longer nullable loses its null default.

The projection is taken of the node, before it is read as a schema, so a node that is no schema
can make it fail.
-/
import StreamTable.Avro.Descriptor

namespace StreamTable
namespace Avro
namespace NullFree

/-- Whether a node is the null type, by its name or as an object. -/
def isNullType : Value → Bool
  | .str s => s == "null"
  | .map es =>
    match Value.field? es "type" with
    | some t => t.isText "null"
    | none => false
  | _ => false

/-- A union of the branches that are left. -/
def collapse : List Value → Value
  | [] => .str "null"
  | [b] => b
  | bs => .list bs

/-- Whether a value has two parts, the first of which may be a key. -/
def pairFault? : Value → Option DataFault
  | .str s => if s.length = 2 then none else some .wrongValue
  | .list xs => parts xs
  | .tuple xs => parts xs
  | .map es => parts (es.map (·.1))
  | .bytes b => if b.length = 2 then none else some .wrongValue
  | .bytearray b => if b.length = 2 then none else some .wrongValue
  | _ => some .wrongType
where
  parts : List Value → Option DataFault
    | [k, _] => if k.isHashable then none else some .wrongType
    | _ => some .wrongValue

/-- Why a value that is no object cannot be a field. -/
def fieldFault : Value → DataFault
  | .str s => if s.isEmpty then .wrongType else .wrongValue
  | .list xs => (xs.findSome? pairFault?).getD .wrongType
  | .tuple xs => (xs.findSome? pairFault?).getD .wrongType
  | _ => .wrongType

/-- Fields that are not in a list: none at all, or a fault. -/
def looseFields : Value → Except DataFault Value
  | .str s => if s.isEmpty then .ok (.list []) else .error .wrongValue
  | .map [] => .ok (.list [])
  | .map ((k, _) :: _) => .error (fieldFault k)
  | .tuple [] => .ok (.list [])
  | .set [] => .ok (.list [])
  | .bytes [] => .ok (.list [])
  | .bytearray [] => .ok (.list [])
  | _ => .error .wrongType

def isNullDefault (e : Value × Value) : Bool := e.1.isText "default" && e.2.isNull

/-- A field's entries without a null default, unless its type is null. -/
def dropNullDefault (es : List (Value × Value)) : List (Value × Value) :=
  match Value.field? es "type" with
  | some type => if isNullType type then es else es.filter fun e => !isNullDefault e
  | none => es

def requireKey (es : List (Value × Value)) (key : String) : Except DataFault Unit :=
  if (Value.field? es key).isSome then .ok () else .error (.missingKey (.str key))

/-- The entries of a projected record; one that came without fields gets an empty list of them. -/
def withFields (es stripped : List (Value × Value)) : List (Value × Value) :=
  if (Value.field? es "fields").isSome then stripped
  else stripped ++ [Value.entry "fields" (.list [])]

mutual

def strip : Value → Except DataFault Value
  | .list xs => do
    let branches ← stripBranches xs
    pure (collapse branches)
  | .map es =>
    match Value.field? es "type" with
    | some (.str "record") => do
      let stripped ← stripFieldsEntry es
      pure (.map (withFields es stripped))
    | some (.str "error") => do
      let stripped ← stripFieldsEntry es
      pure (.map (withFields es stripped))
    | some (.str "array") => do
      requireKey es "items"
      let es ← stripEntry "items" es
      pure (.map es)
    | some (.str "map") => do
      requireKey es "values"
      let es ← stripEntry "values" es
      pure (.map es)
    | some (.list _) => do
      let es ← stripEntry "type" es
      pure (.map es)
    | some (.map _) => do
      let es ← stripEntry "type" es
      pure (.map es)
    | _ => pure (.map es)
  | node => pure node

/-- The branches that are not null, each without nulls. -/
def stripBranches : List Value → Except DataFault (List Value)
  | [] => pure []
  | b :: bs =>
    if isNullType b then stripBranches bs
    else do
      let b ← strip b
      let bs ← stripBranches bs
      pure (b :: bs)

def stripEntry (key : String) : List (Value × Value) → Except DataFault (List (Value × Value))
  | [] => pure []
  | (k, v) :: es => do
    let v ← if k.isText key then strip v else pure v
    let es ← stripEntry key es
    pure ((k, v) :: es)

/-- A record's entries with its fields projected. -/
def stripFieldsEntry : List (Value × Value) → Except DataFault (List (Value × Value))
  | [] => pure []
  | (k, v) :: es => do
    let v ← if k.isText "fields" then
        match v with
        | .list fs => do
          let fs ← stripFields fs
          pure (.list fs)
        | v => looseFields v
      else pure v
    let es ← stripFieldsEntry es
    pure ((k, v) :: es)

def stripFields : List Value → Except DataFault (List Value)
  | [] => pure []
  | .map es :: fs => do
    requireKey es "type"
    let es ← stripEntry "type" es
    let fs ← stripFields fs
    pure (.map (dropNullDefault es) :: fs)
  | v :: _ => throw (fieldFault v)

end

def ofDescriptor (descriptor : Option String) : Except Failure Schema := do
  let node ← Descriptor.load descriptor
  match strip node with
  | .ok node => Descriptor.schemaOf node descriptor
  | .error fault => .error (.data fault)

end NullFree
end Avro
end StreamTable
