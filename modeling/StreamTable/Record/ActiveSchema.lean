/-
The active schema: the schema of the last record that brought a new one.  Schemas are told apart
by the text of their descriptors alone.  Beside the schema stand its null-free projection and the
records that hold plain values of its types, one for each field name that was asked for.

Which of these a table writer is bound to is told by a `Binding`.  It names the schema and not its
content, so two bindings are equal only if no other schema was active between them.
-/
import StreamTable.Avro.NullFree
import StreamTable.Record.PlainValue

namespace StreamTable

/-- A schema in use: the active one of a version, or the record that holds its plain values in the
field of the given name. -/
structure Binding where
  version : Nat
  wrappedIn : Option String
deriving DecidableEq

structure ActiveSchema where
  descriptor : Option String
  schema : Option Avro.Schema
  projection : Option Avro.Schema
  version : Nat
  node : Value
  wrapped : List (String × Avro.Schema)

namespace ActiveSchema

/-- Before the first record. -/
def none : ActiveSchema := ⟨.none, .none, .none, 0, .null, []⟩

def isPresent (a : ActiveSchema) : Bool := a.descriptor.isSome

/-- Whether a descriptor is another one than the active schema's. -/
def isChanged (a : ActiveSchema) (descriptor : Option String) : Bool :=
  a.descriptor.isNone || a.descriptor != descriptor

/-- The state after a descriptor was accepted. -/
def activate (a : ActiveSchema) (descriptor : Option String) :
    Except Failure ActiveSchema := do
  let node ← Avro.Descriptor.load descriptor
  let schema ← Avro.Descriptor.schemaOf node descriptor
  let stripped ← (Avro.NullFree.strip node).mapError Failure.data
  let projection ← Avro.Descriptor.schemaOf stripped descriptor
  pure ⟨descriptor, some schema, some projection, a.version + 1, node, []⟩

/-- Look at a record's descriptor.  The answer says whether it replaced the active schema; if it
is refused, the active schema stays. -/
def observe (a : ActiveSchema) (descriptor : Option String) :
    Except Failure Bool × ActiveSchema :=
  if a.isChanged descriptor then
    match a.activate descriptor with
    | .ok a' => (.ok true, a')
    | .error f => (.error f, a)
  else (.ok false, a)

def binding (a : ActiveSchema) : Binding := ⟨a.version, .none⟩

/-- The record that the active schema is wrapped into, which is kept for the next time. -/
def wrap (a : ActiveSchema) (fieldName : String) :
    Except Failure (Avro.Schema × Binding) × ActiveSchema :=
  match a.wrapped.find? (·.1 == fieldName) with
  | some e => (.ok (e.2, ⟨a.version, some fieldName⟩), a)
  | .none =>
    match Avro.Descriptor.schemaOf (PlainValue.wrappingNode a.node fieldName) a.descriptor with
    | .ok s =>
      (.ok (s, ⟨a.version, some fieldName⟩), { a with wrapped := (fieldName, s) :: a.wrapped })
    | .error f => (.error f, a)

/-- The record that plain values of the active schema are stored in.  A record schema is used as
it is; another one is wrapped into a record. -/
def storage (a : ActiveSchema) (fieldName : String) :
    Except Failure (Avro.Schema × Binding) × ActiveSchema :=
  match a.schema with
  | some s => if s.isRecord then (.ok (s, a.binding), a) else a.wrap fieldName
  | .none => a.wrap fieldName

end ActiveSchema
end StreamTable
