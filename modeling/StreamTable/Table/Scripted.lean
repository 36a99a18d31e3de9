/-
Table writers that follow a script.  The script says beforehand how the next calls of each kind
end, and the calls are recorded as events.  With it a sink can be tried against storage that fails
or refuses at chosen moments.
-/
import StreamTable.Avro.Canonical
import StreamTable.Table.Backend

namespace StreamTable
namespace Scripted

inductive Turn where
  | answer (yes : Bool)
  | fail
  /-- The call waits until it is released, and then succeeds. -/
  | stall
deriving DecidableEq, Inhabited

inductive Call where
  | create
  | update
  | write
  | flush
  | close
deriving DecidableEq

def Call.name : Call → String
  | .create => "create"
  | .update => "update"
  | .write => "write"
  | .flush => "flush"
  | .close => "close"

inductive Event where
  | created (number : Nat)
  | schemaUpdated (number : Nat) (replaced : Bool)
  | written (number : Nat) (row : Value)
  | flushed (number : Nat) (done : Bool) (pending : Nat)
  | closed (number : Nat)
  | failed (call : Call)

/-- The turns that are left for each call; a call without a turn left succeeds. -/
structure Script where
  create : List Turn
  update : List Turn
  write : List Turn
  flush : List Turn
  close : List Turn
  /-- Whether a writer asks to be replaced when its schema changes, or takes on the new one. -/
  replace : Bool

namespace Script

def turns (s : Script) : Call → List Turn
  | .create => s.create
  | .update => s.update
  | .write => s.write
  | .flush => s.flush
  | .close => s.close

def withTurns (s : Script) (call : Call) (turns : List Turn) : Script :=
  match call with
  | .create => { s with create := turns }
  | .update => { s with update := turns }
  | .write => { s with write := turns }
  | .flush => { s with flush := turns }
  | .close => { s with close := turns }

end Script

structure World where
  script : Script
  /-- How many writers were opened. -/
  writers : Nat
  /-- What happened, oldest first. -/
  events : List Event
  /-- How many calls stalled. -/
  stalls : Nat

namespace World

def start (s : Script) : World := ⟨s, 0, [], 0⟩

def record (e : Event) (w : World) : World := { w with events := w.events ++ [e] }

def next (w : World) (call : Call) : Turn := (w.script.turns call).headD (.answer true)

def advance (w : World) (call : Call) : World :=
  { w with script := w.script.withTurns call (w.script.turns call).tail
           stalls := if w.next call = .stall then w.stalls + 1 else w.stalls }

end World

structure Writer where
  number : Nat
  schema : Avro.Schema
  pending : Nat

def Writer.name (w : Writer) : String := "scripted-" ++ toString w.number

/-- Take the turn of a call: a failure is recorded and ends the call. -/
def takeTurn (call : Call) : Action World Bool := fun w =>
  let after := w.advance call
  match w.next call with
  | .answer yes => ⟨.ok yes, after, []⟩
  | .stall => ⟨.ok true, after, []⟩
  | .fail =>
    ⟨.error (.storage ("scripted " ++ call.name ++ " failure")), after.record (.failed call), []⟩

def onWorld {α : Type} (a : Action World α) : Action (Writer × World) α :=
  a.focus (·.2) fun w s => (s.1, w)

def note (e : Event) : Action World Unit := .modify (World.record e)

def formOf {σ : Type} (s : Avro.Schema) : Action σ String :=
  .lift (s.canonicalForm.mapError Failure.schema)

def create (s : Avro.Schema) : Action World Writer := do
  let _ ← takeTurn .create
  let w ← Action.get
  Action.modify fun w => { w with writers := w.writers + 1 }
  note (.created (w.writers + 1))
  pure ⟨w.writers + 1, s, 0⟩

def updateSchema (s : Avro.Schema) : Action (Writer × World) Bool := do
  let _ ← onWorld (takeTurn .update)
  let (writer, world) ← Action.get
  let before ← formOf writer.schema
  let after ← formOf s
  let changed := before != after
  let replaced := changed && world.script.replace
  if changed && !replaced then
    Action.modify fun p => ({ p.1 with schema := s }, p.2)
  onWorld (note (.schemaUpdated writer.number replaced))
  pure replaced

def write (row : Value) : Action (Writer × World) Unit := do
  let _ ← onWorld (takeTurn .write)
  let (writer, _) ← Action.get
  onWorld (note (.written writer.number row))
  Action.modify fun p => ({ p.1 with pending := p.1.pending + 1 }, p.2)

def flush : Action (Writer × World) Bool := do
  let done ← onWorld (takeTurn .flush)
  let (writer, _) ← Action.get
  onWorld (note (.flushed writer.number done writer.pending))
  if done then Action.modify fun p => ({ p.1 with pending := 0 }, p.2)
  pure done

def close : Action (Writer × World) Unit := do
  let _ ← onWorld (takeTurn .close)
  let (writer, _) ← Action.get
  onWorld (note (.closed writer.number))

def backend : Backend Writer World where
  create := create
  name := Writer.name
  updateSchema := updateSchema
  write := write
  flush := flush
  close := close

end Scripted
end StreamTable
