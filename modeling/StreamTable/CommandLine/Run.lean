/-
The program: records are read from a file of JSON lines, offered to a sink, and committed to a
table; at the end it says what came of them.  How the worker of the sink gets on beside it, and what
the clock shows the worker, is given as turns.
-/
import StreamTable.CommandLine.Delivery
import StreamTable.CommandLine.Options
import StreamTable.Config.Source
import StreamTable.Log.Line

namespace StreamTable
namespace CommandLine

/-- What the program finds around it: files, an environment, and the time in seconds at which it
opens the sink. -/
structure Host where
  read : String → Except DiskFault (List UInt8)
  environment : Settings.Environment
  now : Double

/-- What the program changes: the files of tables, and what it prints. -/
structure State where
  disk : Store.Disk
  output : List String
  /-- What is said about a command line that is refused. -/
  complaints : List String

def State.start (disk : Store.Disk) : State := ⟨disk, [], []⟩

def print (line : String) : Action State Unit :=
  Action.modify fun s => { s with output := s.output ++ [line] }

/-! ## Settings -/

def textOf (host : Host) (path : String) : Except Failure String := do
  match Text.ofUtf8? (← (host.read path).mapError Failure.disk) with
  | some text => pure text
  | none => throw (.data .notUtf8)

def sourceOf (host : Host) (o : Options) : Settings.Source :=
  match o.config with
  | none => .usual
  | some path => .file (textOf host path)

def isInvalid (f : Failure) : Bool :=
  f.isSinkFailure || match f with
    | .disk .missing => true
    | _ => false

/-- The settings; nothing if they are not valid. -/
def settings? (host : Host) (o : Options) : Action State (Option Settings) := do
  match ← (Settings.load (sourceOf host o) host.environment).attempt with
  | .ok s => return some s
  | .error f =>
    if !isInvalid f then Action.fail f
    else
      Action.log ((Log.Entry.plain .error "Invalid configuration").because f.message)
      return none

/-- A storage setting that is taken from an option, if that is given and not empty. -/
def override (key : String) (option : Option String) (s : Settings) : Settings :=
  match option.filter (!·.isEmpty) with
  | some text => { s with storage := Value.put s.storage (.str key) (.str text) }
  | none => s

/-! ## The whole run -/

/-- The lines that say what came of the records. -/
def report (d : Delivery) (version : Value) : List String :=
  let l := d.threads.loop
  let t := l.coordinator.totals
  ["Records offered:   " ++ toString d.offered,
    "Records written:   " ++ toString t.written,
    "Records dropped:   " ++ toString t.dropped,
    "Records skipped:   " ++ toString t.skipped,
    "Table version:     " ++ version.text] ++
  (l.lastError.map fun f => "Stopped on error:  " ++ f.message).toList

/-- The number of the last version of the table that settings name. -/
def tableVersion (s : Settings) (d : Store.Disk) : Except Failure Value := do
  let m ← (← Store.tableOf s.storage).manifest d
  (Store.Manifest.currentVersion m).mapError Failure.data

/-- The entries of a file; one that cannot be read has none, and reading it fails. -/
def feedOf (host : Host) (fieldName path : String) : Feed :=
  match host.read path with
  | .ok bytes => .ofBytes fieldName bytes
  | .error fault => .failed (.disk fault)

/-- Deliver the records of the input.  The answer is the status to exit with: zero if all records
were taken and nothing stopped the worker.  There is none if the turns do not suffice. -/
def deliver (host : Host) (turns : List Turn) (o : Options) (s : Settings) :
    Action State (Option Nat) := do
  let fieldName ← Action.lift (FieldName.resolve s.overrideFieldName)
  Action.lift s.validate
  let session ← Action.lift (Session.start s (← Action.get).disk host.now)
  let feed := feedOf host fieldName o.input
  let delivered := Program.deliverAndClose (Store.backend s.storage) o.drainTimeout feed
  match ← delivered.run.focus (fun _ => ⟨.start session, 0, turns⟩)
    fun d st => { st with disk := d.threads.loop.coordinator.world } with
  | none => return none
  | some (drained, d) =>
    let version ← Action.lift (tableVersion s (← Action.get).disk)
    (report d version).forM print
    return some (if drained && d.threads.loop.lastError.isNone then 0 else 1)

/-- Run the program with the words on its command line.  The answer is the status to exit with, once
the run has ended. -/
def run (host : Host) (turns : List Turn) (args : List String) : Action State (Option Nat) := do
  match Options.ofWords args with
  | .error .help =>
    usage.forM print
    return some 0
  | .error (.misuse m) =>
    Action.modify fun s => { s with complaints := usage ++ ["error: " ++ m.message] }
    return some 2
  | .ok o =>
    match ← settings? host o with
    | none => return some 2
    | some s => deliver host turns o (override "base_dir" o.baseDir (override "table" o.table s))

/-! ## What the program needs to know and to tell -/

/-- The files that a command line names. -/
def inputFiles (args : List String) : List String :=
  match Options.ofWords args with
  | .ok o => o.config.toList ++ [o.input]
  | .error _ => []

/-- The table that a command line leads to, if it leads to one. -/
def table? (host : Host) (args : List String) : Option Store.Table := do
  let o ← (Options.ofWords args).toOption
  let s ← ((settings? host o).run (.start .empty)).result.toOption.join
  let s := override "base_dir" o.baseDir (override "table" o.table s)
  (Store.tableOf s.storage).toOption

/-- The lines of what is logged in a run, with the time in milliseconds. -/
def logLines (args : List String) (now : Int) (log : List Log.Entry) : List String :=
  match Options.ofWords args with
  | .error _ => []
  | .ok o =>
    let level : Log.Level := if o.verbose then .debug else .info
    let request : Log.Request :=
      { Log.Request.usual with weight := level.weight, structured := o.structuredLogs }
    match Log.Setup.configure request .start with
    | .ok ⟨weight, some handler⟩ =>
      (log.filter fun e => weight ≤ e.level.weight).filterMap fun e =>
        (handler.format.line (.ofEntry "stream_table" now e)).toOption
    | _ => []

end CommandLine
end StreamTable
