/-
Records from a file of JSON lines.  Each line that is not blank holds an entry: an object with a
schema, an encoding, a payload and an id, all optional.  A line that is no entry is skipped, and it
says nothing about the lines around it.
-/
import StreamTable.Record.Decoder
import StreamTable.Text.Lines
import StreamTable.Text.Utf8

namespace StreamTable

def Encoding.ofEntry (line : Nat) (entry : List (Value × Value)) : Except Failure Encoding :=
  match Value.field? entry "encoding" with
  | none => .ok .json
  | some v =>
    match v.asStr?.bind Encoding.ofText? with
    | some e => .ok e
    | none => .error (.unknownEncoding line v)

namespace Record

/-- The descriptor of an entry: the text it gives, the JSON text of the schema it gives, or for a
plain value the one that the value itself suggests. -/
def descriptorOf (encoding : Encoding) (schema payload : Value) (fieldName : String) :
    Except Failure String :=
  match schema with
  | .null => if encoding = .primitive then PlainValue.descriptor payload fieldName else .ok ""
  | .str s => .ok s
  | node =>
    match Json.print? node with
    | some text => .ok text
    | none => .error (.data .wrongType)

/-- The record of an entry; its line number stands for an id that is missing. -/
def ofEntry (line : Nat) (entry : Value) (fieldName : String) : Except Failure Record :=
  match entry with
  | .map es => do
    let part (key : String) : Value := (Value.field? es key).getD .null
    let encoding ← Encoding.ofEntry line es
    let descriptor ← descriptorOf encoding (part "schema") (part "payload") fieldName
    pure
      { descriptor := some descriptor
        encoding := encoding
        payload := part "payload"
        id := .str ((Value.field? es "id").getD (.int line)).text }
  | _ => .error (.data .noSuchAttribute)

/-! ## Lines -/

inductive Line where
  | blank
  | record (r : Record)
  | skipped (cause : Failure)
  | failed (f : Failure)

def isSkipped : Failure → Bool
  | .unknownEncoding .. => true
  | .data .wrongType => true
  | .data .wrongValue => true
  | .data .notUtf8 => true
  | .data .notJson => true
  | _ => false

def ofLine (fieldName : String) (number : Nat) (line : String) : Line :=
  let text := Text.trim line.toList
  if text.isEmpty then .blank
  else
    match Json.read (String.ofList text) with
    | .error (.malformed m) => .skipped (.row (.notJson m) none)
    | .error .tooManyDigits => .skipped (.data .wrongValue)
    | .ok entry =>
      match ofEntry number entry fieldName with
      | .ok r => .record r
      | .error f => if isSkipped f then .skipped f else .failed f

end Record

/-- The records of a file as they are read: in order, with the numbers of the lines that are
skipped, and the failure that reading ends with, if it does not reach the end. -/
inductive Feed where
  | done
  | failed (f : Failure)
  | skipped (line : Nat) (cause : Failure) (rest : Feed)
  | record (r : Record) (rest : Feed)

namespace Feed

def ofLines (fieldName : String) (last : Feed) : Nat → List String → Feed
  | _, [] => last
  | number, line :: rest =>
    let rest := ofLines fieldName last (number + 1) rest
    match Record.ofLine fieldName number line with
    | .blank => rest
    | .record r => .record r rest
    | .skipped cause => .skipped number cause rest
    | .failed f => .failed f

/-- The feed of a file.  If it is not all text, the lines that are complete before the damage shows
are read. -/
def ofBytes (fieldName : String) (bytes : List UInt8) : Feed :=
  match Text.ofUtf8? bytes with
  | some text => ofLines fieldName .done 1 (Text.lines text)
  | none => ofLines fieldName (.failed (.data .notUtf8)) 1 (Text.linesBeforeDamage bytes)

def records : Feed → List Record
  | .done => []
  | .failed _ => []
  | .skipped _ _ rest => rest.records
  | .record r rest => r :: rest.records

def skippedLines : Feed → List Nat
  | .done => []
  | .failed _ => []
  | .skipped line _ rest => line :: rest.skippedLines
  | .record _ rest => rest.skippedLines

def failure? : Feed → Option Failure
  | .done => none
  | .failed f => some f
  | .skipped _ _ rest => rest.failure?
  | .record _ rest => rest.failure?

def skipEntry (line : Nat) (cause : Failure) : Log.Entry :=
  (Log.Entry.plain .warning ("Skipping input line " ++ toString line)).because cause.message

/-- What reading says, in order. -/
def log : Feed → List Log.Entry
  | .done => []
  | .failed _ => []
  | .skipped line cause rest => skipEntry line cause :: rest.log
  | .record _ rest => rest.log

end Feed
end StreamTable
