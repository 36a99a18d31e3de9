/-
Data files: a schema and the data of rows that were written with it.  The schema is kept as its
node and is read again with the rows, so a file stands for itself.
-/
import StreamTable.Avro.Datum.Read
import StreamTable.Avro.Datum.Write

namespace StreamTable
namespace Store

inductive Codec where
  | null
  | deflate
  | bzip2
  | xz
deriving DecidableEq

namespace Codec

def name : Codec → String
  | .null => "null"
  | .deflate => "deflate"
  | .bzip2 => "bzip2"
  | .xz => "xz"

def ofName? (s : String) : Option Codec :=
  if s = "null" then some .null
  else if s = "deflate" then some .deflate
  else if s = "bzip2" then some .bzip2
  else if s = "xz" then some .xz
  else none

def ofSetting (v : Value) : Except DataFault Codec :=
  match v with
  | .str s =>
    match ofName? s with
    | some c => .ok c
    | none => .error .wrongValue
  | v => .error (if v.isHashable then .wrongValue else .wrongType)

end Codec

structure DataFile where
  header : Value
  codec : Codec
  data : List Avro.Datum

namespace DataFile

def ofRows (schema : Avro.Schema) (codec : Value) (rows : List Value) :
    Except Failure DataFile := do
  let settled ← schema.settle.mapError Failure.schema
  let codec ← (Codec.ofSetting codec).mapError Failure.data
  let write := Avro.Datum.write (.of settled) Avro.maxNesting settled
  let data ← (rows.mapM write).mapError Failure.data
  pure ⟨Avro.Schema.unmarked schema.toValue, codec, data⟩

def rows (f : DataFile) : Except Failure (List Value) := do
  let schema ← (Avro.Schema.parseWhole f.header).mapError Failure.schema
  let read := Avro.Datum.read (.of schema) Avro.maxNesting schema
  (f.data.mapM read).mapError Failure.data

end DataFile
end Store
end StreamTable
