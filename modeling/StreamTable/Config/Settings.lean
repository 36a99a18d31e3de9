/-
The settings of a sink.  They come from files and environments, so each is kept as the value that
was given; `Settings.validate` checks the values before a sink is opened.
-/
import StreamTable.Value.Floating
import StreamTable.Value.Order

namespace StreamTable

structure Settings where
  /-- Seconds between commits while rows are pending. -/
  maxCommitInterval : Value
  /-- Pending rows that make a commit due at any time. -/
  maxRecordsPerCommit : Value
  /-- Failed commits in a row that are put up with. -/
  maxCommitFailedTimes : Value
  /-- The name of the field that holds a plain value; if empty, the usual one. -/
  overrideFieldName : Value
  /-- How many records may wait. -/
  queueSize : Value
  /-- Milliseconds to wait for a record. -/
  pollTimeoutMs : Value
  sinkName : Value
  /-- The kind of storage and what it needs to know. -/
  storage : List (Value × Value)

namespace Settings

def defaultStorage : List (Value × Value) :=
  [Value.entry "type" (.str "avro_lake"), Value.entry "base_dir" (.str "lake/tables"),
    Value.entry "table" (.str "default")]

def default : Settings where
  maxCommitInterval := .int 120
  maxRecordsPerCommit := .int 10000000
  maxCommitFailedTimes := .int 5
  overrideFieldName := .str ""
  queueSize := .int 10000
  pollTimeoutMs := .int 100
  sinkName := .str "lakesink"
  storage := defaultStorage

def storageSetting (s : Settings) (key : String) : Value :=
  (Value.field? s.storage key).getD .null

def commitIntervalSeconds (s : Settings) : Except DataFault Double := s.maxCommitInterval.toDouble

def pollTimeoutSeconds (s : Settings) : Except DataFault Double :=
  match s.pollTimeoutMs with
  | .float x => .ok (x.div (.ofInt 1000))
  | v =>
    match v.asInt? with
    | some n => (Value.doubleOfInt n).map fun x => x.div (.ofInt 1000)
    | none => .error .wrongType

/-- Refuse a number that is not more than zero. -/
def requirePositive (name : String) (v : Value) : Except Failure Unit := do
  if ← (Value.atMost v (.int 0)).mapError Failure.data then throw (.config (.notPositive name))

/-- Refuse a number that is less than zero. -/
def requireNatural (name : String) (v : Value) : Except Failure Unit := do
  if ← (Value.fallsShortOf v (.int 0)).mapError Failure.data then throw (.config (.negative name))

/-- Check the numbers, and that a kind of storage is named. -/
def validate (s : Settings) : Except Failure Unit := do
  requirePositive "max_commit_interval" s.maxCommitInterval
  requirePositive "max_records_per_commit" s.maxRecordsPerCommit
  requireNatural "max_commit_failed_times" s.maxCommitFailedTimes
  requirePositive "queue_size" s.queueSize
  requirePositive "poll_timeout_ms" s.pollTimeoutMs
  if !(s.storageSetting "type").isTruthy then throw (.config .storageTypeMissing)

end Settings
end StreamTable
