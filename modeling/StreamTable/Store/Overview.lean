/-
What a table holds, at a glance: its rows, and what its manifest says of each version.
-/
import StreamTable.Store.Table

namespace StreamTable
namespace Store

/-- What a manifest says of a version, and whether its file is there. -/
structure VersionOverview where
  version : Value
  file : Value
  rows : Value
  fingerprint : Value
  isThere : Bool

structure Overview where
  rows : List Value
  table : Value
  version : Value
  versions : List VersionOverview

namespace Table

def versionOverview (t : Table) (d : Disk) (v : Value) : Except Failure VersionOverview := do
  let part (key : String) : Except Failure Value := (Manifest.part v key).mapError Failure.data
  let path ← t.filePath v
  return ⟨← part "version", ← part "file", ← part "rows", ← part "schema_fingerprint",
    d.isThere path⟩

def overview (t : Table) (d : Disk) : Except Failure Overview := do
  let rows ← t.rows d
  let m ← t.manifest d
  let table ← (Manifest.part m "table").mapError Failure.data
  let version ← (Manifest.currentVersion m).mapError Failure.data
  let versions ← (Manifest.versions m).mapError Failure.data
  return ⟨rows, table, version, ← versions.mapM (t.versionOverview d)⟩

end Table

/-- The tables on a disk: the folders with a manifest. -/
def Disk.tables (d : Disk) : List Table :=
  d.entries.filterMap fun e =>
    if e.1.names.getLast? == some Manifest.fileName then
      let folder := e.1.parent
      some ⟨folder.parent, (folder.names.getLast?).getD ""⟩
    else none

end Store
end StreamTable
