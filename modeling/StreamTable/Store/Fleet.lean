/-
Several writers at work on one disk, each under a name.  They may write the same table and have
different schemas; each call of one of them is carried out before the next.
-/
import StreamTable.Store.Writer

namespace StreamTable
namespace Store

structure Fleet where
  disk : Disk
  writers : List (String × Writer)

namespace Fleet

variable {α : Type}

def start : Fleet := ⟨.empty, []⟩

def writer? (f : Fleet) (name : String) : Option Writer :=
  (f.writers.find? (·.1 == name)).map (·.2)

def put (f : Fleet) (name : String) (w : Writer) : Fleet :=
  { f with writers := (name, w) :: f.writers.filter (·.1 != name) }

def onDisk (a : Action Disk α) : Action Fleet α := a.focus disk fun d f => { f with disk := d }

def launch (name : String) (create : Action Disk Writer) : Action Fleet Writer := do
  let w ← onDisk create
  Action.modify fun f => f.put name w
  return w

/-- An action of a writer; one that was not opened has nothing to act with. -/
def onWriter (name : String) (a : Action (Writer × Disk) α) : Action Fleet α := fun f =>
  match f.writer? name with
  | none => ⟨.error (.data .noSuchAttribute), f, []⟩
  | some w =>
    let e := a (w, f.disk)
    ⟨e.result, { (f.put name e.state.1) with disk := e.state.2 }, e.log⟩

/-- Write rows, each whatever came of those before it. -/
def writeAll (name : String) : List Value → Action Fleet (List (Except Failure Unit))
  | [] => return []
  | row :: rest => do
    let result ← (onWriter name (Writer.write row)).attempt
    return result :: (← writeAll name rest)

end Fleet
end Store
end StreamTable
