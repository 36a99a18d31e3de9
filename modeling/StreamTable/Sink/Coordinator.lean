/-
The commit coordinator owns the one open table writer.  It opens writers, counts failed commits
against a limit, and replaces a writer whose schema has changed: rows that are pending are
committed first, with repeated attempts, so that replacing a writer discards nothing.
-/
import StreamTable.Sink.Window
import StreamTable.Table.Backend

namespace StreamTable

/-- What a sink has done so far. -/
structure Totals where
  written : Nat
  dropped : Nat
  skipped : Nat
  commits : Nat
  commitFailures : Nat
  schemaChanges : Nat

def Totals.zero : Totals := ⟨0, 0, 0, 0, 0, 0⟩

/-- The open writer, the world that writers share, and the counts. -/
structure Coordinator (W S : Type) where
  writer : Option W
  world : S
  /-- How many writers were opened. -/
  opened : Nat
  window : Window
  totals : Totals

namespace Coordinator

variable {W S : Type}

/-- Without a writer. -/
def start (world : S) (window : Window) : Coordinator W S := ⟨none, world, 0, window, .zero⟩

def say (level : Log.Level) (message : String) : Action (Coordinator W S) Unit :=
  .log (.plain level message)

def onWriter {α : Type} (w : W) (call : Action (W × S) α) : Action (Coordinator W S) α :=
  call.focus (fun c => (w, c.world)) fun p c => { c with writer := some p.1, world := p.2 }

/-- The open writer; one is opened for the schema if there is none. -/
def getOrCreate (b : Backend W S) (schema : Avro.Schema) : Action (Coordinator W S) W := do
  let c ← Action.get
  match c.writer with
  | some w => pure w
  | none =>
    let created ← ((b.create schema).focus Coordinator.world
      fun s c => { c with world := s }).attempt
    match created with
    | .error cause => Action.fail (.writerCreation cause)
    | .ok w =>
      Action.modify fun c => { c with writer := some w, opened := c.opened + 1 }
      say .info ("Opened table writer " ++ b.name w ++ " (#" ++ toString (c.opened + 1) ++ ")")
      pure w

def write (b : Backend W S) (row : Value) : Action (Coordinator W S) Unit := do
  let c ← Action.get
  match c.writer with
  | none => Action.fail .noWriter
  | some w => onWriter w (b.write row)

def commitDone : Action (Coordinator W S) Unit := do
  let c ← Action.get
  if c.window.failures ≠ 0 then
    say .info ("Commit succeeded after " ++ toString c.window.failures ++ " failed attempts")
  Action.modify fun c =>
    { c with window := c.window.clearFailures
             totals := { c.totals with commits := c.totals.commits + 1 } }

/-- What follows a commit that was not done: one failure more, and the end when there are more of
them than the limit allows. -/
def commitFailed (limit : Value) : Action (Coordinator W S) Unit := do
  Action.modify fun c =>
    { c with window := c.window.commitFailed
             totals := { c.totals with commitFailures := c.totals.commitFailures + 1 } }
  let c ← Action.get
  let failures := c.window.failures
  say .warning ("Commit records failed " ++ toString failures ++ " times")
  let tooMany ← Action.lift ((Value.exceeds (.int failures) limit).mapError Failure.data)
  if tooMany then
    let failure := Failure.commits failures limit
    say .error failure.message
    Action.fail failure

/-- Commit the pending rows.  The answer says whether that was done; too many failures in a row
end in a failure. -/
def flush (b : Backend W S) (limit : Value) : Action (Coordinator W S) Bool := do
  let c ← Action.get
  match c.writer with
  | none => Action.fail .noWriter
  | some w =>
    let done ← onWriter w b.flush
    if done then commitDone else commitFailed limit
    pure done

/-- Close and release the open writer, if there is one.  It is released even if closing fails. -/
def close (b : Backend W S) : Action (Coordinator W S) Unit := do
  let c ← Action.get
  match c.writer with
  | none => pure ()
  | some w =>
    Action.modify fun c => { c with writer := none }
    say .info ("Closing table writer " ++ b.name w)
    b.close.focus (fun c => (w, c.world)) fun p c => { c with world := p.2 }

/-- Repeat a commit until it is done, at most so many times; then it is given up. -/
def flushUntilDone (b : Backend W S) (limit : Value) : Nat → Action (Coordinator W S) Unit
  | 0 => do
    let c ← Action.get
    Action.fail (.commits c.window.failures limit)
  | tries + 1 => do
    let done ← flush b limit
    if done then pure () else flushUntilDone b limit tries

/-- How many failures a limit can take from a count on: an attempt more than that fails for good.
A limit that is no finite number gives no end to them. -/
def patience (limit : Value) (failures : Nat) : Nat :=
  let left (highest : Int) : Nat := (highest - failures).toNat + 1
  match limit with
  | .float x => if x.isFinite then left (Int.fdiv x.fraction.1 x.fraction.2) else Nat.pow 2 64
  | .decimal (.finite negative coefficient exponent) =>
    let n : Int := if negative then -coefficient else coefficient
    left (Int.fdiv (n * Nat.pow 10 exponent.toNat) (Nat.pow 10 (-exponent).toNat))
  | v =>
    match v.asInt? with
    | some n => left n
    | none => Nat.pow 2 64

/-- Tell the open writer of a new schema, and replace it if it asks for that.  Rows still pending
are committed first.  The answer says whether the writer was replaced. -/
def updateSchema (b : Backend W S) (limit : Value) (schema : Avro.Schema) (pending : Int) :
    Action (Coordinator W S) Bool := do
  let c ← Action.get
  match c.writer with
  | none =>
    let _ ← getOrCreate b schema
    pure false
  | some w =>
    let replace ← onWriter w (b.updateSchema schema)
    if !replace then pure false
    else
      say .info ("Schema change requires a new table writer (" ++ toString pending ++
        " rows pending)")
      if pending > 0 then flushUntilDone b limit (patience limit c.window.failures)
      close b
      let _ ← getOrCreate b schema
      pure true

end Coordinator
end StreamTable
