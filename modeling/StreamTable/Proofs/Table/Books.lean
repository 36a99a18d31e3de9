/-
Books: what has become of the rows that were handed to table writers.  A row that was taken is
pending until a commit covers it, and a record that was acknowledged stays so.

`Backend.Accounts` is what has to be known of a kind of table writers so that its rows can be
followed: what the world looks like for given books, with a writer open or with none, and that each
call leaves it so.  The rows of a whole run are followed from this alone.
-/
import StreamTable.Proofs.Action.Ends
import StreamTable.Table.Backend

namespace StreamTable

structure Books where
  /-- The rows that a commit covers, each with its record, oldest first. -/
  committed : List (Record × Value)
  /-- The rows that the open writer has taken since the last commit. -/
  pending : List (Record × Value)
  /-- How many commits there were. -/
  commits : Nat
  /-- The records that were acknowledged, oldest first. -/
  acknowledged : List Record

namespace Books

def empty : Books := ⟨[], [], 0, []⟩

/-- All rows that were taken, oldest first. -/
def rows (k : Books) : List (Record × Value) := k.committed ++ k.pending

def write (k : Books) (r : Record) (row : Value) : Books :=
  { k with pending := k.pending ++ [(r, row)] }

def commit (k : Books) : Books :=
  { k with committed := k.committed ++ k.pending, pending := [], commits := k.commits + 1 }

def acknowledge (k : Books) (r : Record) : Books :=
  { k with acknowledged := k.acknowledged ++ [r] }

/-- The last record whose row was taken. -/
def last? (k : Books) : Option Record := k.rows.getLast?.map Prod.fst

@[simp]
theorem rows_write (k : Books) (r : Record) (row : Value) :
    (k.write r row).rows = k.rows ++ [(r, row)] := (List.append_assoc ..).symm

@[simp]
theorem rows_commit (k : Books) : k.commit.rows = k.rows := List.append_nil _

@[simp]
theorem rows_acknowledge (k : Books) (r : Record) : (k.acknowledge r).rows = k.rows := rfl

@[simp]
theorem pending_write (k : Books) (r : Record) (row : Value) :
    (k.write r row).pending = k.pending ++ [(r, row)] := rfl

@[simp]
theorem pending_commit (k : Books) : k.commit.pending = [] := rfl

@[simp]
theorem pending_acknowledge (k : Books) (r : Record) : (k.acknowledge r).pending = k.pending := rfl

@[simp]
theorem commits_write (k : Books) (r : Record) (row : Value) :
    (k.write r row).commits = k.commits := rfl

@[simp]
theorem commits_commit (k : Books) : k.commit.commits = k.commits + 1 := rfl

@[simp]
theorem commits_acknowledge (k : Books) (r : Record) : (k.acknowledge r).commits = k.commits := rfl

@[simp]
theorem acknowledged_write (k : Books) (r : Record) (row : Value) :
    (k.write r row).acknowledged = k.acknowledged := rfl

@[simp]
theorem acknowledged_commit (k : Books) : k.commit.acknowledged = k.acknowledged := rfl

@[simp]
theorem acknowledged_acknowledge (k : Books) (r : Record) :
    (k.acknowledge r).acknowledged = k.acknowledged ++ [r] := rfl

@[simp]
theorem last?_write (k : Books) (r : Record) (row : Value) : (k.write r row).last? = some r := by
  simp [last?]

@[simp]
theorem last?_commit (k : Books) : k.commit.last? = k.last? := by
  simp [last?]

@[simp]
theorem last?_acknowledge (k : Books) (r : Record) : (k.acknowledge r).last? = k.last? := rfl

end Books

/-- How the rows of a kind of table writers are followed. -/
structure Backend.Accounts {W S : Type} (b : Backend W S) where
  /-- The world agrees with the books while a writer is open. -/
  Opened : W → S → Books → Prop
  /-- The world agrees with the books while no writer is open. -/
  Closed : S → Books → Prop
  create_ends {s : S} {k : Books} (schema : Avro.Schema) : Closed s k → k.pending = [] →
    (b.create schema).Ends s (fun w t => Opened w t k) (fun _ t => Closed t k)
  updateSchema_ends {w : W} {s : S} {k : Books} (schema : Avro.Schema) : Opened w s k →
    (b.updateSchema schema).Ends (w, s) (fun _ t => Opened t.1 t.2 k) (fun _ t => Opened t.1 t.2 k)
  write_ends {w : W} {s : S} {k : Books} (r : Record) (row : Value) : Opened w s k →
    (b.write row).Ends (w, s) (fun _ t => Opened t.1 t.2 (k.write r row))
      (fun _ t => Opened t.1 t.2 k)
  /-- A commit is asked for only while rows are pending. -/
  flush_ends {w : W} {s : S} {k : Books} : Opened w s k → k.pending ≠ [] →
    b.flush.Ends (w, s) (fun done t => Opened t.1 t.2 (if done then k.commit else k))
      (fun _ t => Opened t.1 t.2 k)
  /-- A writer is closed only when nothing is pending. -/
  close_ends {w : W} {s : S} {k : Books} : Opened w s k → k.pending = [] →
    b.close.Ends (w, s) (fun _ t => Closed t.2 k) (fun _ t => Closed t.2 k)
  /-- What is acknowledged is the last record that was written, once all rows are committed. -/
  acknowledge_ends {w : W} {s : S} {k : Books} {r : Record} : Opened w s k → k.pending = [] →
    k.last? = some r →
    (b.acknowledge r).Ends s (fun _ t => Opened w t (k.acknowledge r))
      (fun _ t => Opened w t (k.acknowledge r))

end StreamTable
