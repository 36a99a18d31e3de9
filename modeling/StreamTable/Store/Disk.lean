/-
The files of a table store.  A file holds a text, a JSON document or the rows of a data file;
folders stand in the same list.  A commit is a list of file operations, each of which is done or
refused as a whole.

`Disk.faults` says which of the next operations fail although nothing in the way of files keeps
them from succeeding: a full disk, a broken cable.  A torn write leaves an empty file behind.
-/
import StreamTable.Store.DataFile
import StreamTable.Store.Path

namespace StreamTable
namespace Store

inductive Content where
  | folder
  | text (s : String)
  | document (v : Value)
  | rows (f : DataFile)

def Content.isFolder : Content → Bool
  | .folder => true
  | _ => false

/-- A failure that comes from outside. -/
inductive Fault where
  | none
  /-- The operation does nothing. -/
  | refused
  /-- A write gets no further than an empty file. -/
  | torn
deriving DecidableEq

structure Disk where
  entries : List (Path × Content)
  /-- A number that no file was named by yet. -/
  serial : Nat
  faults : List Fault
  /-- The time that commits are dated with. -/
  now : DateTime

namespace Disk

def empty : Disk := ⟨[], 0, [], .epoch⟩

def content? (d : Disk) (p : Path) : Option Content :=
  let p := p.normal
  if p.names.isEmpty then some .folder
  else (d.entries.find? fun e => e.1 = p).map (·.2)

def isThere (d : Disk) (p : Path) : Bool := (d.content? p).isSome

def isFolder (d : Disk) (p : Path) : Bool := ((d.content? p).map Content.isFolder).getD false

def remove (d : Disk) (p : Path) : Disk :=
  let p := p.normal
  { d with entries := d.entries.filter fun e => e.1 ≠ p }

def put (d : Disk) (p : Path) (c : Content) : Disk :=
  let d := d.remove p
  { d with entries := d.entries ++ [(p.normal, c)] }

/-- Whether a file can stand at a path: its folder is there, and no folder is in its place. -/
def canHold (d : Disk) (p : Path) : Bool := d.isFolder p.parent && !d.isFolder p

/-- Make folders, given as paths from the top down. -/
def makeAll (d : Disk) : List Path → Except DiskFault Disk
  | [] => .ok d
  | p :: rest =>
    match d.content? p with
    | some .folder => makeAll d rest
    | some _ => .error (if rest.isEmpty then .occupied else .notFolder)
    | none => makeAll (d.put p .folder) rest

/-- Make a folder and those on the way to it.  A name that a later step up undoes is made too. -/
def makeFolder (d : Disk) (p : Path) : Except DiskFault Disk := d.makeAll p.way

/-- Give a folder, with all that is in it, another path. -/
def move (d : Disk) (source target : Path) : Disk :=
  { d with entries := d.entries.map fun e =>
      match source.below? e.1 with
      | some names => ({ target with names := target.names ++ names }, e.2)
      | none => e }

/-- The files below a path, as texts, sorted. -/
def filesBelow (d : Disk) (p : Path) : List String :=
  let names := d.entries.filterMap fun e =>
    if e.2.isFolder then none else (p.normal.below? e.1).map Path.joinNames
  names.mergeSort fun a b => !decide (b < a)

/-- What is on a disk that was not on an earlier one; documents and rows are written anew whenever
they are written. -/
def changes (earlier later : Disk) : List (Path × Content) :=
  later.entries.filter fun e =>
    match e.2 with
    | .folder | .text _ => !earlier.isThere e.1
    | .document _ | .rows _ => true

end Disk

/-- A step of changing files. -/
inductive FileOp where
  | write (p : Path) (c : Content)
  /-- Move a file to another path, replacing what is there. -/
  | rename (source target : Path)
  | delete (p : Path)

namespace FileOp

/-- The disk after an operation that nothing from outside disturbs, if the operation can be
done. -/
def carryOut? (op : FileOp) (d : Disk) : Option Disk :=
  match op with
  | .write p c => if d.canHold p then some (d.put p c) else none
  | .rename source target =>
    match d.content? source with
    | some c =>
      if d.canHold target && !c.isFolder then some ((d.remove source).put target c) else none
    | none => none
  | .delete p => if d.isThere p && !d.isFolder p then some (d.remove p) else none

/-- The disk that a torn operation leaves behind. -/
def tear (op : FileOp) (d : Disk) : Disk :=
  match op with
  | .write p _ => if d.canHold p then d.put p (.text "") else d
  | _ => d

/-- Do an operation.  The answer says whether it was done. -/
def perform (op : FileOp) (d : Disk) : Bool × Disk :=
  let rest := { d with faults := d.faults.tail }
  match d.faults.headD .none with
  | .refused => (false, rest)
  | .torn => (false, op.tear rest)
  | .none =>
    match op.carryOut? rest with
    | some d => (true, d)
    | none => (false, rest)

/-- Do operations one after another, up to the first that fails. -/
def performAll : List FileOp → Disk → Bool × Disk
  | [], d => (true, d)
  | op :: rest, d =>
    match op.perform d with
    | (true, d) => performAll rest d
    | (false, d) => (false, d)

end FileOp
end Store
end StreamTable
