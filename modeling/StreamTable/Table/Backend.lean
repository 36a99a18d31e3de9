/-
What a kind of table writer does.  A table writer is opened for one schema and takes rows, which
stay pending until a flush commits them.  Writers of one kind share a world: the files they write
to, or the script they follow.  Whoever waits for a record to be acknowledged is a part of that
world as well.
-/
import StreamTable.Action
import StreamTable.Record.Decoder

namespace StreamTable

/-- The operations of table writers of type `W` in a world of type `S`. -/
structure Backend (W S : Type) where
  /-- Open a writer for a schema. -/
  create : Avro.Schema → Action S W
  name : W → String
  /-- Tell a writer of a new schema.  The answer says whether the writer must be replaced, because
  it cannot take rows of that schema. -/
  updateSchema : Avro.Schema → Action (W × S) Bool
  write : Value → Action (W × S) Unit
  /-- Commit the pending rows.  The answer says whether that was done. -/
  flush : Action (W × S) Bool
  close : Action (W × S) Unit
  /-- Tell whoever waits for a record that it was acknowledged. -/
  acknowledge : Record → Action S Unit := fun _ => pure ()

end StreamTable
