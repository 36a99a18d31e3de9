/-
The program on the command line.  The files that it needs are read, the run is worked out, and the
files that it changed are written, each under a temporary name first.
-/
import Std.Time.DateTime.Timestamp
import StreamTable.CommandLine.Run
import StreamTable.Store.DataFile.Container

namespace StreamTable
namespace CommandLine

def readFile (path : String) : IO (Except DiskFault (List UInt8)) := do
  try
    return .ok (← IO.FS.readBinFile path).toList
  catch
    | .noFileOrDirectory .. => return .error .missing
    | .inappropriateType .. => return .error .isFolder
    | e => throw e

/-- What is at a path; a file that holds no text counts as one with rows. -/
def contentAt (path : String) : IO (Option Store.Content) := do
  match ← readFile path with
  | .error .missing => return none
  | .error _ => return some .folder
  | .ok bytes =>
    return some (((Text.ofUtf8? bytes).map Store.Content.text).getD (.rows ⟨.null, .null, []⟩))

/-- The places that matter to a commit into a table: its folders, from the top down, and the files
of its manifest. -/
def pathsOf (t : Store.Table) : List Store.Path :=
  (t.dataFolder.way ++ [t.manifestPath, t.draftPath]).map Store.Path.normal

def diskFor (t : Option Store.Table) (serial : Nat) (now : DateTime) : IO Store.Disk := do
  let mut disk : Store.Disk := { Store.Disk.empty with serial := serial, now := now }
  for path in (t.map pathsOf).getD [] do
    if let some content ← contentAt path.text then
      disk := disk.put path content
  return disk

/-- Put a file where it belongs. -/
def save (marker : List UInt8) (path : Store.Path) (content : Store.Content) : IO Unit := do
  match content with
  | .folder => IO.FS.createDirAll path.text
  | content =>
    match content.bytes? marker with
    | none => throw (IO.userError ("cannot write " ++ path.text))
    | some bytes =>
      let draft := path.parent.child ("." ++ path.names.getLastD "" ++ ".tmp")
      IO.FS.writeBinFile draft.text (ByteArray.mk bytes.toArray)
      IO.FS.rename draft.text path.text

/-- The variables that are set. -/
def environment : IO Settings.Environment :=
  Settings.variableNames.filterMapM fun name => do
    return (← IO.getEnv name).map fun text => (name, text)

/-- Turns in which the worker keeps up with the program, enough of them for an input of so many
bytes and a drain that finds the worker gone. -/
def turnsFor (bytes : Nat) (now : Double) : List Turn :=
  List.replicate (2 * bytes + 4096) (.steady now 16)

def numberOfBytes (bytes : List UInt8) : Nat := bytes.foldl (fun n b => n * 256 + b.toNat) 0

end CommandLine
end StreamTable

open StreamTable StreamTable.CommandLine in
def main (args : List String) : IO UInt32 := do
  let files ← (inputFiles args).mapM fun path => do return (path, ← readFile path)
  let nanos := (← Std.Time.Timestamp.now).toNanosecondsSinceUnixEpoch.val
  let millis := nanos / 1000000
  let host : Host :=
    { read := fun path => ((files.find? (·.1 == path)).map (·.2)).getD (.error .missing)
      environment := ← environment
      now := .ofMillis millis }
  let serial := numberOfBytes (← IO.getRandomBytes 6).toList
  let marker := (← IO.getRandomBytes 16).toList
  let now := (DateTime.ofMicros? (nanos / 1000) (some .universal)).getD .epoch
  let disk ← diskFor (table? host args) serial now
  let bytes := files.foldl (fun n file => n + (file.2.toOption.getD []).length) 0
  let e := (run host (turnsFor bytes host.now) args).run (.start disk)
  (logLines args millis e.log).forM IO.println
  (disk.changes e.state.disk).forM fun (path, content) => save marker path content
  e.state.output.forM IO.println
  e.state.complaints.forM IO.eprintln
  match e.result with
  | .ok (some status) => return UInt32.ofNat status
  | .ok none =>
    IO.eprintln "The run does not end"
    return 1
  | .error f =>
    IO.eprintln f.message
    return 1
