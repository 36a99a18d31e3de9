/-
Schema descriptors: the text that comes with a record and says how its rows look.  A descriptor is
the JSON text of a schema node, or the bare name of a type.
-/
import StreamTable.Avro.Schema.Parser
import StreamTable.Text.Identifier

namespace StreamTable
namespace Avro
namespace Descriptor

def isBlank (text : String) : Bool := (Text.trim text.toList).isEmpty

def load (descriptor : Option String) : Except Failure Value :=
  match descriptor with
  | none => .error (.descriptor .empty none)
  | some given =>
    let text := Text.trim given.toList
    if text.isEmpty then .error (.descriptor .empty (some given))
    else
      match Json.read (String.ofList text) with
      | .ok node => .ok node
      | .error .tooManyDigits => .error (.data .wrongValue)
      | .error (.malformed m) =>
        if Text.isIdentifier text then .ok (.str (String.ofList text))
        else .error (.descriptor (.notJson m) (some given))

def isReported : SchemaFault → Bool
  | .data (.missingKey _) => true
  | .data .wrongType => true
  | .data .wrongValue => true
  | .data .notUtf8 => true
  | .data .notJson => true
  | .data _ => false
  | _ => true

/-- The schema of a node; the descriptor is noted with the failure. -/
def schemaOf (node : Value) (descriptor : Option String) : Except Failure Schema :=
  match Schema.parse node with
  | .ok s => .ok s
  | .error fault =>
    if isReported fault then .error (.descriptor (.badSchema fault) descriptor)
    else .error (.schema fault)

end Descriptor
end Avro
end StreamTable
