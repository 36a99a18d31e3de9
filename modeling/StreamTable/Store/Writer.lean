/-
Writers of a table.  Rows are kept in a buffer until a flush.  A flush writes one data file under
a temporary name, renames it, and then replaces the manifest in the same way; only with the last
of these steps does the table have a new version.  A step that fails leaves the table and the
buffer as they were.
-/
import StreamTable.Avro.Canonical
import StreamTable.Config.Settings
import StreamTable.Store.Table
import StreamTable.Table.Backend

namespace StreamTable
namespace Store

structure Writer where
  table : Table
  codec : Value
  schema : Avro.Schema
  fingerprint : String
  /-- The rows that are not committed yet. -/
  buffer : List Value
  closed : Bool

namespace Writer

def name (w : Writer) : String := "avro_lake:" ++ w.table.name

def fingerprintOf (s : Avro.Schema) : Except Failure String := do
  let s ← s.settle.mapError Failure.schema
  s.fingerprint.mapError Failure.schema

/-- Open a writer of a table; the table's folders are made if they are missing. -/
def create (table : Table) (codec : Value) (schema : Avro.Schema) : Action Disk Writer := do
  let settled ← .lift (schema.settle.mapError Failure.schema)
  let fingerprint ← .lift (settled.fingerprint.mapError Failure.schema)
  let d ← Action.get
  let d ← .lift ((table.makeFolders d).mapError Failure.disk)
  Action.modify fun _ => d
  pure ⟨table, codec, settled, fingerprint, [], false⟩

def updateSchema (schema : Avro.Schema) : Action (Writer × Disk) Bool := do
  let (w, _) ← Action.get
  let fingerprint ← .lift (fingerprintOf schema)
  pure (fingerprint != w.fingerprint)

def write (row : Value) : Action (Writer × Disk) Unit := do
  let (w, _) ← Action.get
  if w.closed then Action.fail (.writerClosed w.name)
  else if ← .lift (w.schema.fits row) then
    Action.modify fun p => ({ p.1 with buffer := p.1.buffer ++ [row] }, p.2)
  else Action.fail .invalidRow

/-- The paths of a version's data file, before and after it is renamed. -/
def dataPaths (t : Table) (version : Int) (serial : Nat) : Path × Path :=
  let name := Manifest.dataName version serial
  (t.dataFolder.child ("." ++ name ++ ".tmp"), t.dataFolder.child name)

/-- The first half of a commit: a data file is written and takes its place. -/
def dataOps (t : Table) (version : Int) (serial : Nat) (c : Content) : List FileOp :=
  let (draft, final) := dataPaths t version serial
  [.write draft c, .rename draft final]

/-- The second half of a commit: a manifest is written and takes its place. -/
def manifestOps (t : Table) (m : Value) : List FileOp :=
  [.write t.draftPath (.document m), .rename t.draftPath t.manifestPath]

def extend (w : Writer) (m : Value) (version : Int) (serial : Nat) (now : DateTime) :
    Except DataFault Value :=
  Manifest.withVersion m version
    (Manifest.entry version (Manifest.dataName version serial) w.buffer.length w.fingerprint now)

/-- Do file operations.  The answer says whether all were done. -/
def perform (ops : List FileOp) : Action (Writer × Disk) Bool := fun (w, d) =>
  let (done, d) := FileOp.performAll ops d
  ⟨.ok done, (w, d), []⟩

/-- The manifest of the writer's table, if the disk lets it be read. -/
def readManifest : Action (Writer × Disk) Value := fun (w, d) =>
  let rest := { d with faults := d.faults.tail }
  match d.faults.headD .none with
  | .none => ⟨w.table.manifest d, (w, rest), []⟩
  | _ => ⟨.error (.storage ("cannot read " ++ w.table.manifestPath.text)), (w, rest), []⟩

/-- A number that no data file was named by yet. -/
def freshSerial : Action (Writer × Disk) Nat := fun (w, d) =>
  ⟨.ok d.serial, (w, { d with serial := d.serial + 1 }), []⟩

/-- Remove a file if it is there. -/
def discard (p : Path) : Action (Writer × Disk) Unit := do
  let (_, d) ← Action.get
  if d.isThere p then
    if !(← perform [.delete p]) then Action.fail (.storage ("cannot remove " ++ p.text))

/-- Give a commit up: what it wrote of the data file is removed. -/
def abandon (version : Int) (serial : Nat) : Action (Writer × Disk) Bool := do
  let (w, _) ← Action.get
  let (draft, final) := dataPaths w.table version serial
  Action.log (.plain .error
    ("Failed to commit version " ++ toString version ++ " of " ++ w.table.name))
  discard draft
  discard final
  pure false

/-- Write the data file of a commit.  Rows that cannot be encoded end the commit and leave the
temporary file behind. -/
def writeData (version : Int) (serial : Nat) : Action (Writer × Disk) Bool := do
  let (w, _) ← Action.get
  match DataFile.ofRows w.schema w.codec w.buffer with
  | .ok file => perform (dataOps w.table version serial (.rows file))
  | .error f =>
    let opened ← perform ((dataOps w.table version serial (.text "")).take 1)
    if opened then Action.fail f else pure false

/-- Commit the rows in the buffer as a new version of the table. -/
def flush : Action (Writer × Disk) Bool := do
  let (w, d) ← Action.get
  if w.buffer.isEmpty then pure true
  else
    let m ← readManifest
    let version ← .lift ((Manifest.nextVersion m).mapError Failure.data)
    let serial ← freshSerial
    if !(← writeData version serial) then abandon version serial
    else
      let m ← .lift ((w.extend m version serial d.now).mapError Failure.data)
      if !(← perform (manifestOps w.table m)) then abandon version serial
      else
        Action.modify fun p => ({ p.1 with buffer := [] }, p.2)
        pure true

/-- Commit what is in the buffer and take no more rows. -/
def close : Action (Writer × Disk) Unit := do
  let (w, _) ← Action.get
  if w.closed then pure ()
  else
    if !(← flush) then
      Action.log (.plain .error ("Discarding " ++ toString w.buffer.length ++
        " uncommitted rows of " ++ w.table.name))
      Action.modify fun p => ({ p.1 with buffer := [] }, p.2)
    Action.modify fun p => ({ p.1 with closed := true }, p.2)

end Writer

def textSetting (v : Value) : Except Failure String :=
  match v with
  | .str s => .ok s
  | _ => .error (.data .wrongType)

/-- A setting of the storage, or what it is if nothing is said. -/
def settingOr (storage : List (Value × Value)) (key : String) (otherwise : String) : Value :=
  (Value.field? storage key).getD (.str otherwise)

def tableOf (storage : List (Value × Value)) : Except Failure Table := do
  let base ← textSetting (settingOr storage "base_dir" "lake/tables")
  let name ← textSetting (settingOr storage "table" "default")
  pure ⟨.ofText base, name⟩

def createBySettings (storage : List (Value × Value)) (schema : Avro.Schema) :
    Action Disk Writer := do
  let type := (Value.field? storage "type").getD .null
  if type.isText "avro_lake" then
    let table ← .lift (tableOf storage)
    Writer.create table (settingOr storage "codec" "null") schema
  else Action.fail (.config (.storageTypeUnknown type))

def backend (storage : List (Value × Value)) : Backend Writer Disk where
  create := createBySettings storage
  name := Writer.name
  updateSchema := Writer.updateSchema
  write := Writer.write
  flush := Writer.flush
  close := Writer.close

end Store
end StreamTable
