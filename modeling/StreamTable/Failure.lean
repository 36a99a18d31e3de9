/-
What can go wrong, by cause.  `DataFault` is about values: a key that is missing, a value of the
wrong type or out of range.  `SchemaFault` is about schemas, `ConfigFault` about settings,
`DiskFault` about files.
`Failure` is what an operation of the sink reports, and `Failure.message` is its text.
-/
import StreamTable.Json.Reader
import StreamTable.Value.Text

namespace StreamTable

/-- Why an operation on values fails. -/
inductive DataFault where
  | missingKey (key : Value)
  | wrongType
  | wrongValue
  | noSuchAttribute
  | overflow
  | badIndex
  /-- An operation of decimal arithmetic has no result. -/
  | arithmetic
  /-- Values or schemas are nested without end. -/
  | tooDeep
  /-- The document does not follow the grammar of the schema. -/
  | grammar
  | notUtf8
  | notJson
deriving Inhabited

inductive SchemaFault where
  | unknownName (name : String)
  | unknownKind
  | nameMissing
  | redefined (name : String)
  | fieldNotMap (field : Value)
  | fieldUnnamed
  | fieldTypeMissing (name : Value)
  | aliasesNotList (aliases : Value)
  | badSymbol
  | repeatedSymbol
  | enumDefault
  | badScale (scale : Value)
  | badPrecision (precision : Value)
  | precisionTooLarge (precision size : Value)
  | scaleAbovePrecision (precision : Value)
  | badDefault
  | badUnionDefault
  | data (fault : DataFault)
deriving Inhabited

/-- A text up to its first bracket, without blanks at its end.  Messages about schemas leave out
the schemas themselves. -/
def beforeBracket (s : String) : String :=
  String.ofList (Text.trimRight (s.toList.takeWhile fun c =>
    c ≠ '<' && c ≠ '\x7b' && c ≠ '['))

def DataFault.message : DataFault → String
  | .missingKey key => "missing " ++ key.shown
  | .wrongType => "a value has the wrong type"
  | .wrongValue => "a value is not allowed"
  | .noSuchAttribute => "a value lacks an attribute"
  | .overflow => "a number is out of range"
  | .badIndex => "an index is out of range"
  | .arithmetic => "a decimal operation has no result"
  | .tooDeep => "values are nested too deeply"
  | .grammar => "the document does not follow the schema"
  | .notUtf8 => "the bytes are not UTF-8"
  | .notJson => "the text is not JSON"

def SchemaFault.fullMessage : SchemaFault → String
  | .unknownName name => name
  | .unknownKind => ""
  | .nameMissing => "\"name\" is a required field missing from the schema:"
  | .redefined name => "redefined named type: " ++ name
  | .fieldNotMap v => "Record field must be a dict, not " ++ v.typeName ++ ": " ++ v.text
  | .fieldUnnamed => "Record field is missing 'name':"
  | .fieldTypeMissing name => "Record field " ++ name.shown ++ " is missing 'type'"
  | .aliasesNotList v => "aliases must be a list, not " ++ v.text
  | .badSymbol => "Every symbol must match the regular expression"
  | .repeatedSymbol => "All symbols in an enum must be unique"
  | .enumDefault => "Default value for enum must be in symbols list"
  | .badScale v => "decimal scale must be a positive integer, not " ++ v.text
  | .badPrecision v => "decimal precision must be a positive integer, not " ++ v.text
  | .precisionTooLarge p size =>
    "decimal precision of " ++ p.text ++ " doesn't fit into array of length " ++ size.text
  | .scaleAbovePrecision p =>
    "decimal scale must be less than or equal to the precision of " ++ p.text
  | .badDefault => "Default value must match schema type"
  | .badUnionDefault => "Default value must match a schema in union"
  | .data fault => fault.message

def SchemaFault.message : SchemaFault → String
  | .unknownName name => name
  | .data fault => fault.message
  | fault => beforeBracket fault.fullMessage

inductive DescriptorFault where
  | empty
  | notJson (m : Json.Malformed)
  | badSchema (fault : SchemaFault)

def DescriptorFault.message : DescriptorFault → String
  | .empty => "Schema descriptor is empty"
  | .notJson m => "Schema descriptor is not valid JSON: " ++ m.message
  | .badSchema fault => "Invalid Avro schema: " ++ fault.message

/-- How a record's payload is encoded. -/
inductive Encoding where
  | binary
  | json
  | primitive
deriving DecidableEq, Inhabited

namespace Encoding

def text : Encoding → String
  | .binary => "binary"
  | .json => "json"
  | .primitive => "primitive"

def ofText? (s : String) : Option Encoding :=
  if s = "binary" then some .binary
  else if s = "json" then some .json
  else if s = "primitive" then some .primitive
  else none

end Encoding

inductive RowFault where
  | notJson (m : Json.Malformed)
  | mismatch
deriving DecidableEq

def RowFault.message : RowFault → String
  | .notJson m => "Payload is not valid JSON: " ++ m.message
  | .mismatch => "Payload does not match schema"

/-- Why a plain value cannot be stored. -/
inductive PrimitiveFault where
  | unsupported (typeName : String)
  | keyNotText
  | mixedValues
  | null
deriving DecidableEq

def PrimitiveFault.message : PrimitiveFault → String
  | .unsupported name => "Unsupported primitive value type: " ++ name
  | .keyNotText => "Map keys must be strings"
  | .mixedValues => "Map values must share one type"
  | .null => "Primitive value is None"

/-- Why settings are refused. -/
inductive ConfigFault where
  | fieldName (name : Value)
  | notPositive (setting : String)
  | negative (setting : String)
  | storageTypeMissing
  | storageTypeUnknown (type : Value)
  | notInteger (setting raw : String)
  | invalidYaml
  | rootNotMap

def ConfigFault.message : ConfigFault → String
  | .fieldName name => "Invalid override field name: " ++ name.shown
  | .notPositive setting => setting ++ " must be positive"
  | .negative setting => setting ++ " must not be negative"
  | .storageTypeMissing => "storage.type is required"
  | .storageTypeUnknown type => "Unknown storage type: " ++ type.text
  | .notInteger setting raw => setting ++ " must be an integer, got " ++ Text.quoted raw
  | .invalidYaml => "Invalid YAML in"
  | .rootNotMap => "Config root must be a mapping:"

/-- Why a file cannot be used. -/
inductive DiskFault where
  | missing
  /-- A file stands where a folder is needed. -/
  | notFolder
  /-- A folder stands where a file is needed. -/
  | isFolder
  /-- A file stands where a folder is to be made. -/
  | occupied
deriving DecidableEq

def DiskFault.message : DiskFault → String
  | .missing => "the file does not exist"
  | .notFolder => "a part of the path is no folder"
  | .isFolder => "the path is a folder"
  | .occupied => "the path is taken by a file"

/-- What an operation of the sink reports when it does not succeed. -/
inductive Failure where
  | descriptor (fault : DescriptorFault) (text : Option String)
  | row (fault : RowFault) (encoding : Option Encoding)
  | primitive (fault : PrimitiveFault)
  | commits (failures : Nat) (limit : Value)
  | noWriter
  | writerCreation (cause : Failure)
  | config (fault : ConfigFault)
  | sinkClosed (cause : Option Failure)
  | storage (text : String)
  | writerClosed (name : String)
  | invalidRow
  | queueFull
  | unknownEncoding (line : Nat) (encoding : Value)
  | disk (fault : DiskFault)
  | data (fault : DataFault)
  | schema (fault : SchemaFault)

instance : Inhabited Failure := ⟨.data .wrongType⟩

namespace Failure

def message : Failure → String
  | .descriptor fault _ => fault.message
  | .row fault _ => fault.message
  | .primitive fault => fault.message
  | .commits _ limit =>
    "Exceeded the max commit failed times, the allowed max failure times is " ++ limit.text
  | .noWriter => "No table writer is open"
  | .writerCreation cause => "Failed to create table writer: " ++ cause.message
  | .config fault => fault.message
  | .sinkClosed none => "Sink writer is not running"
  | .sinkClosed (some cause) => "Sink writer is not running: " ++ cause.message
  | .storage text => text
  | .writerClosed name => "Writer " ++ name ++ " is closed"
  | .invalidRow => "the row does not match the schema"
  | .queueFull => "the queue is full"
  | .unknownEncoding line encoding =>
    "line " ++ toString line ++ ": unknown encoding " ++ encoding.shown
  | .disk fault => fault.message
  | .data fault => fault.message
  | .schema fault => fault.message

/-- Whether a failure is one of the sink's own, as against a fault of data or storage. -/
def isSinkFailure : Failure → Bool
  | .descriptor .. | .row .. | .primitive _ | .commits .. | .noWriter | .writerCreation _
  | .config _ | .sinkClosed _ => true
  | _ => false

end Failure
end StreamTable
