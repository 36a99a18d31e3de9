/-
Schemas of rows.  A schema is a primitive type, a reference to a named type, one of the complex
types, or a union.  Everything a schema node holds beside what its kind needs is kept with it as
attributes: documentation, logical types, defaults, aliases and whatever else was written.

`Schema.definitions` lists the named types a schema defines; a name that is defined twice means
its last definition.  `Schema.toValue` writes a schema as the node it was read from.
-/
import StreamTable.Value.Equality

namespace StreamTable
namespace Avro

inductive Primitive where
  | null
  | boolean
  | int
  | long
  | float
  | double
  | bytes
  | string
deriving DecidableEq, Inhabited

namespace Primitive

def name : Primitive → String
  | .null => "null"
  | .boolean => "boolean"
  | .int => "int"
  | .long => "long"
  | .float => "float"
  | .double => "double"
  | .bytes => "bytes"
  | .string => "string"

def ofName? (s : String) : Option Primitive :=
  match s with
  | "null" => some .null
  | "boolean" => some .boolean
  | "int" => some .int
  | "long" => some .long
  | "float" => some .float
  | "double" => some .double
  | "bytes" => some .bytes
  | "string" => some .string
  | _ => none

end Primitive

/-- The entries of a node beside those its kind needs, in order. -/
abbrev Attributes := List (Value × Value)

/-- What a record field holds beside its type. -/
structure FieldHead where
  name : Value
  attributes : Attributes
deriving Inhabited

namespace FieldHead

def default? (f : FieldHead) : Option Value := Value.field? f.attributes "default"

end FieldHead

inductive Schema where
  | primitive (type : Primitive)
  /-- A named type, by its full name. -/
  | named (fullName : String)
  /-- A primitive type written as an object. -/
  | annotated (type : Primitive) (attributes : Attributes)
  | array (items : Schema) (attributes : Attributes)
  | map (values : Schema) (attributes : Attributes)
  /-- The symbols are most often a list of names. -/
  | enum (fullName : String) (symbols : Value) (attributes : Attributes)
  | fixed (fullName : String) (size : Value) (attributes : Attributes)
  | record (isError : Bool) (fullName : String) (fields : List (FieldHead × Schema))
      (attributes : Attributes)
  | union (branches : List Schema)
  /-- A node that is marked as checked before and is taken as it is. -/
  | unchecked (node : Value)
deriving Inhabited

/-- A record field: its head and its type. -/
abbrev Field := FieldHead × Schema

namespace Schema

/-- The name of a schema's kind, by which branches of a union are told apart. -/
def kind : Schema → String
  | .primitive p => p.name
  | .named n => n
  | .annotated p _ => p.name
  | .array .. => "array"
  | .map .. => "map"
  | .enum .. => "enum"
  | .fixed .. => "fixed"
  | .record isError .. => if isError then "error" else "record"
  | .union _ => "union"
  | .unchecked _ => "unchecked"

mutual

def toValue : Schema → Value
  | .primitive p => .str p.name
  | .named n => .str n
  | .annotated p attrs => .map (attrs ++ [Value.entry "type" (.str p.name)])
  | .array items attrs =>
    .map (attrs ++ [Value.entry "type" (.str "array"), Value.entry "items" items.toValue])
  | .map values attrs =>
    .map (attrs ++ [Value.entry "type" (.str "map"), Value.entry "values" values.toValue])
  | .enum name symbols attrs =>
    .map (attrs ++ [Value.entry "type" (.str "enum"), Value.entry "name" (.str name),
      Value.entry "symbols" symbols])
  | .fixed name size attrs =>
    .map (attrs ++ [Value.entry "type" (.str "fixed"), Value.entry "name" (.str name),
      Value.entry "size" size])
  | .record isError name fields attrs =>
    .map (attrs ++ [Value.entry "type" (.str (if isError then "error" else "record")),
      Value.entry "name" (.str name), Value.entry "fields" (.list (fieldValues fields))])
  | .union branches => .list (branchValues branches)
  | .unchecked node => node

def branchValues : List Schema → List Value
  | [] => []
  | s :: rest => s.toValue :: branchValues rest

def fieldValues : List (FieldHead × Schema) → List Value
  | [] => []
  | (f, s) :: rest =>
    .map (f.attributes ++ [Value.entry "name" f.name, Value.entry "type" s.toValue]) ::
      fieldValues rest

end

mutual

/-- The named types that a schema defines, an outer one before those inside it. -/
def definitions : Schema → List (String × Schema)
  | .array items _ => items.definitions
  | .map values _ => values.definitions
  | .enum name symbols attrs => [(name, .enum name symbols attrs)]
  | .fixed name size attrs => [(name, .fixed name size attrs)]
  | .record isError name fields attrs =>
    (name, .record isError name fields attrs) :: fieldDefinitions fields
  | .union branches => branchDefinitions branches
  | _ => []

def branchDefinitions : List Schema → List (String × Schema)
  | [] => []
  | s :: rest => s.definitions ++ branchDefinitions rest

def fieldDefinitions : List (FieldHead × Schema) → List (String × Schema)
  | [] => []
  | (_, s) :: rest => s.definitions ++ fieldDefinitions rest

end

/-- Whether a schema is a record, so that its values are rows as they are. -/
def isRecord : Schema → Bool
  | .record .. => true
  | .unchecked (.map es) =>
    match Value.field? es "type" with
    | some t => t.isText "record" || t.isText "error"
    | none => false
  | _ => false

end Schema

/-- The named types in reach of a schema. -/
structure Definitions where
  entries : List (String × Schema)

namespace Definitions

/-- What a name stands for: its last definition. -/
def find? (d : Definitions) (name : String) : Option Schema :=
  (d.entries.reverse.find? fun e => e.1 == name).map (·.2)

def of (s : Schema) : Definitions := ⟨s.definitions⟩

end Definitions

def isRecordNode (node : Value) : Bool :=
  match node.get? "type" with
  | some t => t.isText "record" || t.isText "error"
  | none => false

end Avro
end StreamTable
