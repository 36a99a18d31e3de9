/-
The writer loop moves records from the queue into the table.  One iteration takes at most one
record: it follows the record's schema, replacing the table writer if that is needed, decodes the
record, writes the row, and commits if a commit is due.  A record without a usable schema is
skipped, one that cannot be decoded is dropped.  Any other failure stops the loop for good.

A commit acknowledges the last record that was written.
-/
import StreamTable.Config.Settings
import StreamTable.Record.Decoder
import StreamTable.Sink.Coordinator

namespace StreamTable

structure Plan where
  thresholds : Thresholds
  /-- How many failed commits in a row are put up with. -/
  limit : Value
  /-- The field that plain values are stored in. -/
  fieldName : String
  /-- Seconds to wait for a record. -/
  pollTimeout : Except DataFault Double
  sinkName : Value
  table : Value

def Plan.ofSettings (s : Settings) : Except Failure Plan := do
  let fieldName ← FieldName.resolve s.overrideFieldName
  let interval ← s.commitIntervalSeconds.mapError Failure.data
  pure
    { thresholds := ⟨interval, s.maxRecordsPerCommit⟩
      limit := s.maxCommitFailedTimes
      fieldName := fieldName
      pollTimeout := s.pollTimeoutSeconds
      sinkName := s.sinkName
      table := s.storageSetting "table" }

/-- A record that was written, and whether it was acknowledged. -/
structure Delivery where
  record : Record
  acknowledged : Bool

/-- What the clock shows at the moments of an iteration when it is read. -/
structure Readings where
  /-- When a new window starts because the table writer was replaced. -/
  replaced : Double
  /-- When it is asked whether a commit is due. -/
  asked : Double
  /-- When a new window starts after a commit. -/
  committed : Double

/-- A clock that stands still during an iteration. -/
def Readings.still (now : Double) : Readings := ⟨now, now, now⟩

structure Loop (W S : Type) where
  queue : List Record
  coordinator : Coordinator W S
  active : ActiveSchema
  /-- The schema that the table writer was last told of. -/
  bound : Option Binding
  /-- The last record that was written. -/
  last : Option Delivery
  /-- The ids of the records that were acknowledged, in order. -/
  acknowledged : List Value
  running : Bool
  lastError : Option Failure
  closed : Bool

namespace Loop

variable {W S : Type}

/-- The loop before its first iteration. -/
def start (world : S) (now : Double) : Loop W S where
  queue := []
  coordinator := .start world (.opened now)
  active := .none
  bound := none
  last := none
  acknowledged := []
  running := true
  lastError := none
  closed := false

def window (l : Loop W S) : Window := l.coordinator.window

def onCoordinator {α : Type} (a : Action (Coordinator W S) α) : Action (Loop W S) α :=
  a.focus coordinator fun c l => { l with coordinator := c }

def count (f : Totals → Totals) : Action (Loop W S) Unit :=
  onCoordinator (.modify fun c => { c with totals := f c.totals })

/-- Acknowledge a record.  It counts as acknowledged also if whoever waits for it fails. -/
def acknowledge (b : Backend W S) (r : Record) : Action (Loop W S) Unit := do
  Action.modify fun l =>
    { l with last := some ⟨r, true⟩
             acknowledged := l.acknowledged ++ [r.id] }
  onCoordinator ((b.acknowledge r).focus Coordinator.world fun s c => { c with world := s })

/-- Acknowledge the last record that was written, unless that was done before. -/
def acknowledgeLast (b : Backend W S) : Action (Loop W S) Unit := do
  let l ← Action.get
  match l.last with
  | some d => if d.acknowledged then pure () else acknowledge b d.record
  | none => pure ()

/-- Acknowledge what a commit covers, and start a new window. -/
def reset (b : Backend W S) (now : Double) : Action (Loop W S) Unit := do
  acknowledgeLast b
  Action.modify fun l => { l with coordinator := { l.coordinator with window := .opened now } }

def commitIfDue (p : Plan) (b : Backend W S) (clock : Readings) : Action (Loop W S) Unit := do
  let l ← Action.get
  if l.window.hasPending then
    let due ← Action.lift ((p.thresholds.isDue clock.asked l.window).mapError Failure.data)
    if due then
      let done ← onCoordinator (Coordinator.flush b p.limit)
      if done then reset b clock.committed

def skip (message : String) (cause : Option Failure) (r : Record) :
    Action (Loop W S) Unit := do
  Action.log { Log.Entry.about .error message r.id with cause := cause.map Failure.message }
  count fun t => { t with skipped := t.skipped + 1 }

/-- Take up the schema of a record.  The answer says whether the record can go on. -/
def follow (r : Record) : Action (Loop W S) Bool := do
  let l ← Action.get
  if r.isBlank then
    skip "Failed to get schema from record, skip the record" none r
    pure false
  else if l.active.isChanged r.descriptor then
    match l.active.observe r.descriptor with
    | (.ok _, active) =>
      Action.modify fun l => { l with active := active }
      count fun t => { t with schemaChanges := t.schemaChanges + 1 }
      pure true
    | (.error f, _) =>
      match f with
      | .descriptor .. =>
        skip "Failed to parse schema, skip the record" (some f) r
        pure false
      | f => Action.fail f
  else pure true

def storage (p : Plan) (r : Record) : Action (Loop W S) (Avro.Schema × Binding) := do
  let l ← Action.get
  match r.encoding with
  | .primitive =>
    let (found, active) := l.active.storage p.fieldName
    Action.modify fun l => { l with active := active }
    Action.lift found
  | _ => pure (l.active.schema.getD default, l.active.binding)

/-- Tell the table writer of the schema, if it is not the one it was last told of. -/
def bind (p : Plan) (b : Backend W S) (clock : Readings) (schema : Avro.Schema)
    (binding : Binding) : Action (Loop W S) Unit := do
  let l ← Action.get
  if l.bound ≠ some binding then
    let replaced ←
      onCoordinator (Coordinator.updateSchema b p.limit schema l.window.records)
    Action.modify fun l => { l with bound := some binding }
    if replaced then reset b clock.replaced

/-- The row of a record, null if there is none. -/
def decode (p : Plan) (r : Record) (schema : Avro.Schema) : Action (Loop W S) Value := fun l =>
  let outcome := Decoder.decode p.fieldName r schema (l.active.projection.getD default)
  ⟨.ok outcome.row,
    { l with active := { l.active with projection := some outcome.projection } }, outcome.log⟩

/-- Hand a row to the table writer and count it. -/
def store (b : Backend W S) (r : Record) (schema : Avro.Schema) (row : Value) :
    Action (Loop W S) Unit := do
  let _ ← onCoordinator (Coordinator.getOrCreate b schema)
  onCoordinator (Coordinator.write b row)
  Action.modify fun l =>
    { l with last := some ⟨r, false⟩
             coordinator := { l.coordinator with window := l.window.recordWritten } }
  count fun t => { t with written := t.written + 1 }

/-- Decode a record and write its row; a record without a row is dropped. -/
def deliver (p : Plan) (b : Backend W S) (clock : Readings) (r : Record) (schema : Avro.Schema)
    (binding : Binding) : Action (Loop W S) Unit := do
  bind p b clock schema binding
  let row ← decode p r schema
  if row.isNull then count fun t => { t with dropped := t.dropped + 1 }
  else
    store b r schema row
    commitIfDue p b clock

/-- Write, drop or skip a record. -/
def handle (p : Plan) (b : Backend W S) (clock : Readings) (r : Record) :
    Action (Loop W S) Unit := do
  if ← follow r then
    let (schema, binding) ← storage p r
    deliver p b clock r schema binding

/-- The longest time that can be waited for, in seconds. -/
def longestWait : Double := .div (.ofInt 9223372036854775807) (.ofInt 1000000000)

def waitFault? (seconds : Double) (empty : Bool) : Option DataFault :=
  if seconds.compare? .zero == some .lt then some .wrongValue
  else if empty && seconds.compare? longestWait == some .gt then some .overflow
  else none

/-- One iteration.  The answer says whether a record was taken from the queue. -/
def iterate (p : Plan) (b : Backend W S) (clock : Readings) (timeout : Double) :
    Action (Loop W S) Bool := do
  let l ← Action.get
  match waitFault? timeout l.queue.isEmpty with
  | some fault => Action.fail (.data fault)
  | none =>
    match l.queue with
    | [] =>
      commitIfDue p b clock
      pure false
    | r :: rest =>
      Action.modify fun l => { l with queue := rest }
      handle p b clock r
      pure true

def stop (l : Loop W S) : Loop W S := { l with running := false }

/-- What is logged when a failure stops the loop. -/
def haltEntry (f : Failure) : Log.Entry :=
  (Log.Entry.about .error "Process record failed, stopping sink writer" .null).because f.message

/-- One iteration of a loop that is running; a failure stops it. -/
def advance (p : Plan) (b : Backend W S) (clock : Readings) (timeout : Double) :
    Action (Loop W S) Bool := do
  let l ← Action.get
  if l.running then
    match ← (iterate p b clock timeout).attempt with
    | .ok taken => pure taken
    | .error f =>
      Action.log (haltEntry f)
      Action.modify fun l => { l with running := false, lastError := some f }
      pure false
  else pure false

/-- One iteration while the clock stands still. -/
def next (p : Plan) (b : Backend W S) (now timeout : Double) : Action (Loop W S) Bool :=
  advance p b (.still now) timeout

/-- One iteration that waits as long as the settings say. -/
def nextByPlan (p : Plan) (b : Backend W S) (now : Double) : Action (Loop W S) Bool := do
  let timeout ← Action.lift (p.pollTimeout.mapError Failure.data)
  next p b now timeout

/-- Whether an iteration at this time would find nothing to do. -/
def isQuiet (p : Plan) (now : Double) (l : Loop W S) : Bool :=
  !l.running || (l.queue.isEmpty && !(l.window.hasPending &&
    match p.thresholds.isDue now l.window with
    | .ok due => due
    | .error _ => true))

/-- Iterate until there is nothing left to do, at most so many times. -/
def repeatUntilQuiet (p : Plan) (b : Backend W S) (now : Double) :
    Nat → Action (Loop W S) Unit
  | 0 => pure ()
  | n + 1 => do
    let l ← Action.get
    if l.isQuiet p now then pure ()
    else
      let _ ← nextByPlan p b now
      repeatUntilQuiet p b now n

/-- The entries of an action as they show inside the loop's own context. -/
def inContext {α : Type} (p : Plan) (a : Action (Loop W S) α) : Action (Loop W S) α := fun l =>
  let e := a l
  { e with log := e.log.map (Log.Entry.within p.sinkName p.table) }

/-- Iterate, while the clock stands still, until the loop has stopped or has nothing left to do.
Each iteration takes a record, or tries a commit that either succeeds or brings the failures
closer to their limit. -/
def run (p : Plan) (b : Backend W S) (now : Double) : Action (Loop W S) Unit := fun l =>
  inContext p (repeatUntilQuiet p b now
    (l.queue.length + Coordinator.patience p.limit 0 + 1)) l

/-- Stop the loop, close the table writer, and acknowledge the last record, also if closing the
writer fails. -/
def close (b : Backend W S) : Action (Loop W S) Unit := do
  Action.modify stop
  let l ← Action.get
  if l.closed then pure ()
  else
    Action.modify fun l => { l with closed := true }
    let result ← (onCoordinator (Coordinator.close b)).attempt
    acknowledgeLast b
    Action.lift result

end Loop
end StreamTable
