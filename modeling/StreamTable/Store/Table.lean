/-
Tables: a folder with a manifest and, in a folder of their own, the data files.  The rows of a
table are those of the files that its manifest lists, oldest version first; a file that is not
listed is no part of the table.
-/
import StreamTable.Json.Reader
import StreamTable.Store.Disk
import StreamTable.Store.Manifest

namespace StreamTable
namespace Store

structure Table where
  base : Path
  name : String

namespace Table

def folder (t : Table) : Path := t.base.join t.name

def dataFolder (t : Table) : Path := t.folder.child "data"

def manifestPath (t : Table) : Path := t.folder.child Manifest.fileName

def draftPath (t : Table) : Path := t.folder.child Manifest.draftName

/-- Make the folders of a table. -/
def makeFolders (t : Table) (d : Disk) : Except DiskFault Disk := d.makeFolder t.dataFolder

def documentIn : Content → Except Failure Value
  | .folder => .error (.disk .isFolder)
  | .document v => .ok v
  | .text s =>
    match Json.read s with
    | .ok v => .ok v
    | .error (.malformed _) => .error (.data .notJson)
    | .error .tooManyDigits => .error (.data .wrongValue)
  | .rows _ => .error (.data .notUtf8)

/-- What a table is called in its manifest.  A table without a name is called after its folder. -/
def title (t : Table) : String := if t.name.isEmpty then t.folder.name else t.name

/-- The manifest of a table; before the first commit it is an empty one. -/
def manifest (t : Table) (d : Disk) : Except Failure Value :=
  match d.content? t.manifestPath with
  | some c => documentIn c
  | none => .ok (Manifest.empty t.title)

def rowsIn (d : Disk) (p : Path) : Except Failure (List Value) :=
  match d.content? p with
  | some (.rows f) => f.rows
  | some .folder => .error (.disk .isFolder)
  | some _ => .error (.data .wrongValue)
  | none => .error (.disk .missing)

def filePath (t : Table) (version : Value) : Except Failure Path := do
  match ← (Manifest.part version "file").mapError Failure.data with
  | .str s => pure (t.folder.join s)
  | _ => throw (.data .wrongType)

def rows (t : Table) (d : Disk) : Except Failure (List Value) := do
  let m ← t.manifest d
  let versions ← (Manifest.versions m).mapError Failure.data
  let parts ← versions.mapM fun v => do rowsIn d (← t.filePath v)
  pure parts.flatten

end Table
end Store
end StreamTable
