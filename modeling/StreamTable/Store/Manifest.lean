/-
The manifest of a table: its name, the number of its last version, and its versions with their
files, oldest first.  A manifest is read from a JSON document that anybody may have written, so
each of its parts can be missing or of another type.
-/
import StreamTable.Text.Digit
import StreamTable.Value.Elements

namespace StreamTable
namespace Store
namespace Manifest

def fileName : String := "_manifest.json"

/-- The name of the file that a manifest is written to before it takes its place. -/
def draftName : String := "." ++ fileName ++ ".tmp"

def empty (table : String) : Value :=
  Value.ofFields [("table", .str table), ("current_version", .int 0), ("versions", .list [])]

def part (v : Value) (key : String) : Except DataFault Value :=
  match v with
  | .map es =>
    match Value.field? es key with
    | some part => .ok part
    | none => .error (.missingKey (.str key))
  | _ => .error .wrongType

def currentVersion (m : Value) : Except DataFault Value := part m "current_version"

def nextVersion (m : Value) : Except DataFault Int := do
  let v ← currentVersion m
  match v with
  | .float _ => throw .wrongValue
  | v =>
    match v.asInt? with
    | some n => pure (n + 1)
    | none => throw .wrongType

/-- A version's number as files are named by it, at least eight characters wide. -/
def versionText (n : Int) : String :=
  let digits := toString n.natAbs
  let sign := if n < 0 then "-" else ""
  let zeros := List.replicate (8 - sign.length - digits.length) '0'
  "v" ++ sign ++ String.ofList zeros ++ digits

def dataName (version : Int) (serial : Nat) : String :=
  versionText version ++ "-" ++ String.ofList (Text.hexPadded 12 serial) ++ ".avro"

def entry (version : Int) (file : String) (rows : Nat) (fingerprint : String)
    (committed : DateTime) : Value :=
  Value.ofFields [("version", .int version), ("file", .str ("data/" ++ file)),
    ("rows", .int rows), ("schema_fingerprint", .str fingerprint),
    ("committed_at", .str committed.text)]

def withVersion (m : Value) (version : Int) (e : Value) : Except DataFault Value :=
  match m with
  | .map es =>
    match Value.field? es "versions" with
    | some (.list versions) =>
      .ok (.map (Value.put (Value.put es (.str "current_version") (.int version))
        (.str "versions") (.list (versions ++ [e]))))
    | some _ => .error .noSuchAttribute
    | none => .error (.missingKey (.str "versions"))
  | _ => .error .wrongType

def versions (m : Value) : Except DataFault (List Value) := do
  match (← part m "versions").elements? with
  | some versions => pure versions
  | none => throw .wrongType

end Manifest
end Store
end StreamTable
