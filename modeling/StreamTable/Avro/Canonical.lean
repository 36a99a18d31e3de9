/-
The canonical form of a schema and its fingerprint.  The canonical form keeps names, types,
fields, symbols, items, values and sizes and drops the rest, in one text without blanks; two
schemas with one canonical form read each other's files.  The fingerprint is a checksum of the
form's bytes.
-/
import StreamTable.Avro.Schema.Parser
import StreamTable.Text.Utf8

namespace StreamTable
namespace Avro
namespace Canonical

def quote (s : String) : String := "\"" ++ s ++ "\""

def pair (key value : String) : String := quote key ++ ":" ++ value

def object (parts : List String) : String := "\x7b" ++ Value.joinTexts "," parts ++ "\x7d"

def array (parts : List String) : String := "[" ++ Value.joinTexts "," parts ++ "]"

mutual

def form : Schema → String
  | .primitive p => quote p.name
  | .named n => quote n
  | .annotated p _ => quote p.name
  | .array items _ => object [pair "type" (quote "array"), pair "items" (form items)]
  | .map values _ => object [pair "type" (quote "map"), pair "values" (form values)]
  | .enum name symbols _ =>
    let names := (symbols.elements?.getD []).map fun s => quote s.text
    object [pair "name" (quote name), pair "type" (quote "enum"), pair "symbols" (array names)]
  | .fixed name size _ =>
    object [pair "name" (quote name), pair "type" (quote "fixed"), pair "size" size.text]
  | .record _ name fields _ =>
    object [pair "name" (quote name), pair "type" (quote "record"),
      pair "fields" (array (fieldForms fields))]
  | .union branches => array (branchForms branches)
  | .unchecked _ => quote "unchecked"

def branchForms : List Schema → List String
  | [] => []
  | s :: rest => form s :: branchForms rest

def fieldForms : List (FieldHead × Schema) → List String
  | [] => []
  | (f, s) :: rest =>
    object [pair "name" (quote f.name.text), pair "type" (form s)] :: fieldForms rest

end

/-- The checksum of no bytes, which is also the polynomial. -/
def emptySum : UInt64 := 0xC15D213AA4D7A795

/-- One bit of the checksum's division. -/
def sumStep (n : UInt64) : UInt64 :=
  if n &&& 1 == 1 then (n >>> 1) ^^^ emptySum else n >>> 1

def byteSum (b : UInt8) : UInt64 :=
  (List.range 8).foldl (fun n _ => sumStep n) b.toUInt64

def checksum (bytes : List UInt8) : UInt64 :=
  bytes.foldl (fun n b => (n >>> 8) ^^^ byteSum (n.toUInt8 ^^^ b)) emptySum

/-- Eight bytes in hexadecimal, the lowest first. -/
def sumText (n : UInt64) : String :=
  String.ofList ((List.range 8).flatMap fun i =>
    Text.hexPadded 2 ((n >>> (8 * UInt64.ofNat i)).toNat % 256))

end Canonical

namespace Schema

def canonicalForm (s : Schema) : Except SchemaFault String := do
  let s ← s.settle
  pure (Canonical.form s)

def fingerprint (s : Schema) : Except SchemaFault String := do
  let form ← s.canonicalForm
  pure (Canonical.sumText (Canonical.checksum (Text.toUtf8 form)))

end Schema
end Avro
end StreamTable
