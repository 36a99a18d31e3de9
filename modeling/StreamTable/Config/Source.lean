/-
Where settings come from: a mapping, the variables of an environment on top of it, and a file that
holds the mapping under the key `sink`.  `Settings.load` puts them together.
-/
import StreamTable.Action
import StreamTable.Config.Settings
import StreamTable.Value.Elements
import StreamTable.Yaml.Node.Value

namespace StreamTable
namespace Settings

def names : List String :=
  ["max_commit_interval", "max_records_per_commit", "max_commit_failed_times",
    "override_field_name", "queue_size", "poll_timeout_ms", "sink_name", "storage"]

def isName : Value → Bool
  | .str s => names.contains s
  | _ => false

/-! ## Mappings -/

def keysOf (data : Value) : Except DataFault (List Value) :=
  match data.elements? with
  | some keys => if keys.all Value.isHashable then .ok (Value.distinct keys) else .error .wrongType
  | none => .error .wrongType

/-- A key and a value, given as anything with two elements. -/
def pairOf (v : Value) : Except DataFault (Value × Value) :=
  match v.elements? with
  | none => .error .wrongType
  | some [key, value] => if key.isHashable then .ok (key, value) else .error .wrongType
  | some _ => .error .wrongValue

/-- The storage settings, on top of those that hold unless others are given: a mapping, or a list of
keys and values. -/
def storageOf (given : Value) : Except DataFault (List (Value × Value)) :=
  if !given.isTruthy then .ok defaultStorage
  else match given with
    | .map es => .ok (Value.putAll defaultStorage es)
    | given =>
      match given.elements? with
      | some items => do return Value.putAll defaultStorage (← items.mapM pairOf)
      | none => .error .wrongType

def warnOfUnknown {σ : Type} (keys : List Value) : Action σ Unit := do
  let unknown := keys.filter fun key => !isName key
  if !unknown.isEmpty then
    let sorted ← Action.lift ((Value.sorted unknown).mapError Failure.data)
    Action.log (.plain .warning
      ("Ignoring unknown sink config keys: " ++ (Value.list sorted).shown))

/-- The settings with the entries of a mapping on top of them, apart from the storage. -/
def withEntries (es : List (Value × Value)) (s : Settings) : Settings :=
  let given (key : String) (otherwise : Value) : Value := (Value.field? es key).getD otherwise
  { maxCommitInterval := given "max_commit_interval" s.maxCommitInterval
    maxRecordsPerCommit := given "max_records_per_commit" s.maxRecordsPerCommit
    maxCommitFailedTimes := given "max_commit_failed_times" s.maxCommitFailedTimes
    overrideFieldName := given "override_field_name" s.overrideFieldName
    queueSize := given "queue_size" s.queueSize
    pollTimeoutMs := given "poll_timeout_ms" s.pollTimeoutMs
    sinkName := given "sink_name" s.sinkName
    storage := s.storage }

/-- The settings that a mapping gives; keys that are no settings are left out. -/
def ofMapping {σ : Type} (data : Value) : Action σ Settings := do
  warnOfUnknown (← Action.lift ((keysOf data).mapError Failure.data))
  match data with
  | .map es =>
    let given := (Value.field? es "storage").getD .null
    let storage ← Action.lift ((storageOf given).mapError Failure.data)
    return { default.withEntries es with storage := storage }
  | _ => Action.fail (.data .noSuchAttribute)

/-! ## Environments -/

def variableNames : List String :=
  ["LAKESINK_MAX_COMMIT_INTERVAL", "LAKESINK_MAX_RECORDS_PER_COMMIT",
    "LAKESINK_MAX_COMMIT_FAILED_TIMES", "LAKESINK_OVERRIDE_FIELD_NAME", "LAKESINK_QUEUE_SIZE",
    "LAKESINK_POLL_TIMEOUT_MS", "LAKESINK_SINK_NAME", "LAKESINK_TABLE", "LAKESINK_BASE_DIR"]

abbrev Environment := List (String × String)

/-- The text of a variable, if that is set. -/
def Environment.get? (env : Environment) (name : String) : Option String :=
  (env.find? (·.1 == name)).map (·.2)

/-- The integer in a variable, if that is set. -/
def integer? (env : Environment) (name : String) (otherwise : Value) : Except Failure Value :=
  match env.get? name with
  | none => .ok otherwise
  | some raw =>
    match Number.readInt? raw.toList with
    | some n => .ok (.int n)
    | none => .error (.config (.notInteger name raw))

/-- The text in a variable, if that is set and not empty. -/
def text? (env : Environment) (name : String) : Option Value :=
  ((env.get? name).filter (!·.isEmpty)).map .str

/-- A storage setting, if a variable gives it. -/
def putStorage (env : Environment) (name key : String) (storage : List (Value × Value)) :
    List (Value × Value) :=
  match text? env name with
  | some v => Value.put storage (.str key) v
  | none => storage

def withEnvironment (env : Environment) (s : Settings) : Except Failure Settings := do
  let maxCommitInterval ← integer? env "LAKESINK_MAX_COMMIT_INTERVAL" s.maxCommitInterval
  let maxRecordsPerCommit ← integer? env "LAKESINK_MAX_RECORDS_PER_COMMIT" s.maxRecordsPerCommit
  let maxCommitFailedTimes ←
    integer? env "LAKESINK_MAX_COMMIT_FAILED_TIMES" s.maxCommitFailedTimes
  let queueSize ← integer? env "LAKESINK_QUEUE_SIZE" s.queueSize
  let pollTimeoutMs ← integer? env "LAKESINK_POLL_TIMEOUT_MS" s.pollTimeoutMs
  return {
    maxCommitInterval, maxRecordsPerCommit, maxCommitFailedTimes, queueSize, pollTimeoutMs
    overrideFieldName :=
      ((env.get? "LAKESINK_OVERRIDE_FIELD_NAME").map .str).getD s.overrideFieldName
    sinkName := (text? env "LAKESINK_SINK_NAME").getD s.sinkName
    storage := putStorage env "LAKESINK_TABLE" "table"
      (putStorage env "LAKESINK_BASE_DIR" "base_dir" s.storage) }

/-! ## Files -/

/-- What is said to hold the settings. -/
inductive Source where
  /-- Nothing; the settings are those that hold unless others are given. -/
  | usual
  /-- A file with a text, unless it cannot be read. -/
  | file (content : Except Failure String)

def ofText {σ : Type} (text : String) : Action σ Settings := do
  match Yaml.read text with
  | .error .malformed => Action.fail (.config .invalidYaml)
  | .error (.data fault) => Action.fail (.data fault)
  | .ok root =>
    if !root.isTruthy then ofMapping (.map [])
    else match root with
      | .map es =>
        let section? := (Value.field? es "sink").filter Value.isTruthy
        ofMapping (section?.getD (.map []))
      | _ => Action.fail (.config .rootNotMap)

/-- The settings of a source with an environment on top, checked. -/
def load {σ : Type} (source : Source) (env : Environment) : Action σ Settings := do
  let s ← match source with
    | .usual => pure default
    | .file content => do ofText (← Action.lift content)
  let s ← Action.lift (s.withEnvironment env)
  Action.lift s.validate
  return s

end Settings
end StreamTable
