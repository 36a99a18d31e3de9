/-
From records to rows.  A binary payload is the row, a JSON payload is read against the null-free
projection, a plain value becomes a row of one field; each must fit its schema.  A payload that
cannot be decoded is reported in the log and gives no row.
-/
import StreamTable.Avro.Document.Reader
import StreamTable.Log.Entry
import StreamTable.Record.ActiveSchema

namespace StreamTable

/-- A record as it comes to the sink.  A null id stands for none. -/
structure Record where
  descriptor : Option String
  encoding : Encoding
  payload : Value
  id : Value

/-- Whether a record says nothing of its schema. -/
def Record.isBlank (r : Record) : Bool := (r.descriptor.map Avro.Descriptor.isBlank).getD true

namespace Decoder

/-- Whether a fault of reading a document means that the document does not fit. -/
def isMismatch : DataFault → Bool
  | .missingKey _ | .wrongType | .wrongValue | .noSuchAttribute | .notUtf8 | .notJson => true
  | _ => false

/-- Whether a fault of a schema, met while a document is read, counts as a mismatch. -/
def isSchemaMismatch : SchemaFault → Bool
  | .unknownName _ => true
  | .unknownKind => true
  | .data fault => isMismatch fault
  | _ => false

/-- The JSON value of a payload: text and bytes are read, anything else stands for itself. -/
def documentOf (payload : Value) : Except Failure Value := do
  let payload ← match payload with
    | .bytes b | .bytearray b =>
      match Text.ofUtf8? b with
      | some s => pure (.str s)
      | none => throw (.data .notUtf8)
    | v => pure v
  let document ← match payload with
    | .str s =>
      match Json.read s with
      | .ok v => pure v
      | .error (.malformed m) => throw (.row (.notJson m) (some .json))
      | .error .tooManyDigits => throw (.data .wrongValue)
    | v => pure v
  match Json.document? document with
  | some d => pure d
  | none => throw (.data .wrongType)

/-- The row of a document, and the projection with its defaults as reading left them. -/
def rowOf (document : Value) (projection : Avro.Schema) :
    Except Failure Value × Avro.Schema :=
  match projection.settle with
  | .error fault =>
    if isSchemaMismatch fault then (.error (.row .mismatch (some .json)), projection)
    else (.error (.schema fault), projection)
  | .ok settled =>
    let (result, defaults) := Avro.Document.readRow settled document
    let projection := projection.withDefaults defaults
    match result with
    | .error fault =>
      if isMismatch fault then (.error (.row .mismatch (some .json)), projection)
      else (.error (.data fault), projection)
    | .ok row =>
      match projection.fits row with
      | .ok true => (.ok row, projection)
      | .ok false => (.error (.row .mismatch (some .json)), projection)
      | .error f => (.error f, projection)

def json (payload : Value) (projection : Avro.Schema) : Except Failure Value × Avro.Schema :=
  match documentOf payload with
  | .ok document => rowOf document projection
  | .error f => (.error f, projection)

def conforming (row : Value) (schema : Avro.Schema) : Except Failure Value := do
  if ← schema.fits row then pure row else throw (.row .mismatch none)

/-- The result of decoding: a row, null standing for none, and what is logged. -/
structure Outcome where
  row : Value
  log : List Log.Entry
  projection : Avro.Schema

/-- The text that a record is called by in the log. -/
def recordName (id : Value) : String := if id.isTruthy then id.text else "<unknown>"

/-- What is logged when a record's payload cannot be decoded. -/
def complaint (r : Record) (cause : Failure) : Log.Entry :=
  (Log.Entry.plain .warning ("Dropping record " ++ recordName r.id ++ ": failed to decode " ++
    r.encoding.text ++ " payload")).because cause.message

/-- The row of a record or the reason why there is none. -/
def attempt (fieldName : String) (r : Record) (schema projection : Avro.Schema) :
    Except Failure Value × Avro.Schema :=
  match r.encoding with
  | .binary => (conforming r.payload schema, projection)
  | .json => json r.payload projection
  | .primitive =>
    ((PlainValue.row r.payload fieldName).bind fun row => conforming row schema, projection)

def decode (fieldName : String) (r : Record) (schema projection : Avro.Schema) : Outcome :=
  match attempt fieldName r schema projection with
  | (.ok row, projection) => ⟨row, [], projection⟩
  | (.error cause, projection) => ⟨.null, [complaint r cause], projection⟩

end Decoder
end StreamTable
