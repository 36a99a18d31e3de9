/-
Lines of a log.  What is logged is an event: a message with arguments, at a level and a time, by a
named logger, with attributes that tell its context.  An event is written as a JSON object on one
line, or as a line for people, or by a format of one's own.
-/
import StreamTable.Json.Printer
import StreamTable.Log.Entry
import StreamTable.Log.Template
import StreamTable.Text.Search

namespace StreamTable
namespace Log

structure Event where
  logger : String
  level : Level
  /-- A template for the message. -/
  template : String
  arguments : List Value
  /-- Milliseconds since the epoch. -/
  created : Int
  attributes : List (Value × Value)
  /-- The text of an exception that goes with the event. -/
  exception : Option String

namespace Event

def ofEntry (logger : String) (created : Int) (e : Entry) : Event where
  logger := logger
  level := e.level
  template := e.text
  arguments := []
  created := created
  attributes := [Value.entry "sink_name" e.sinkName, Value.entry "table" e.table,
    Value.entry "message_id" e.messageId]
  exception := none

def message (e : Event) : Except DataFault String := Template.fill e.template e.arguments

def attribute? (e : Event) (name : String) : Option Value :=
  (Value.field? e.attributes name).filter fun v => !v.isNull

def secondsSinceEpoch (e : Event) : Double := .ofMillis e.created

/-! ## JSON lines -/

/-- The attributes that a JSON line tells, in this order. -/
def contextNames : List String := ["sink_name", "table", "message_id", "schema_version", "attempt"]

/-- The point in time so many seconds after the epoch, to the microsecond, in universal time. -/
def momentOf? (seconds : Double) : Option DateTime :=
  if seconds.isFinite then DateTime.ofMicros? seconds.toMicros (some .universal) else none

/-- The time that a line tells, if it is to tell one. -/
def timeAt (timed : Bool) (seconds : Double) : Except DataFault (Option DateTime) :=
  if timed then
    match momentOf? seconds with
    | some t => .ok (some t)
    | none => .error .wrongValue
  else .ok none

/-- The attributes among `names`, in the order of the names. -/
def attributesOf (e : Event) (names : List String) : List (String × Value) :=
  names.filterMap fun name => (e.attribute? name).map fun v => (name, v)

/-- The fields of the line of an event with its message and the time that it tells. -/
def fields (message : String) (time : Option DateTime) (e : Event) : List (String × Value) :=
  [("level", .str e.level.name), ("logger", .str e.logger), ("message", .str message)] ++
    (time.map fun t => ("timestamp", Value.str t.text)).toList ++ e.attributesOf contextNames ++
    (e.exception.map fun text => ("exception", Value.str text)).toList

/-- What is written of an event that came about so many seconds after the epoch. -/
def documentAt (timed : Bool) (seconds : Double) (e : Event) : Except DataFault Value := do
  let message ← e.message
  let time ← timeAt timed seconds
  return Value.ofFields (e.fields message time)

/-- An event as a JSON object on one line.  What has no JSON form is written as its text. -/
def jsonLineAt (timed : Bool) (seconds : Double) (e : Event) : Except DataFault String := do
  let document ← e.documentAt timed seconds
  match Json.fault? document, Json.printAt? .line .text 0 document with
  | none, some line => pure line
  | fault, _ => throw (fault.getD .wrongType)

def jsonLine (timed : Bool) (e : Event) : Except DataFault String :=
  e.jsonLineAt timed e.secondsSinceEpoch

/-! ## Lines for people -/

/-- The date and the time of the day of an event, with milliseconds after a comma. -/
def clockText (e : Event) : Except DataFault String := do
  let second := Int.fdiv e.created 1000
  let day := Int.fdiv second 86400 + Date.epochOrdinal
  if day < 1 then throw .wrongValue
  let clock := Clock.afterMidnight (second * 1000000) none
  return Date.textOf day.toNat ++ " " ++ clock.plainText ++ "," ++
    Text.decimalPadded 3 (Int.fmod e.created 1000).toNat

/-- A line with the exception on lines of its own after it. -/
def withException (e : Event) (line : String) : String :=
  match e.exception with
  | none => line
  | some text => (if line.endsWith "\n" then line else line ++ "\n") ++ text

/-- The line of an event: the time, the logger, the level and the message with dashes between them,
and then what sink, table and message it is about. -/
def plainLine (timed : Bool) (e : Event) : Except DataFault String := do
  let message ← e.message
  let time ← if timed then do pure [← e.clockText] else pure []
  let line := " - ".intercalate (time ++ [e.logger, e.level.name, message])
  let context := (e.attributesOf ["sink_name", "table", "message_id"]).map fun a =>
    a.1 ++ "=" ++ a.2.text
  let line := e.withException line
  return if context.isEmpty then line else line ++ " [" ++ " ".intercalate context ++ "]"

/-! ## Lines by a format -/

def parts (e : Event) (message : String) (time : Option String) : List (Value × Value) :=
  Value.putAll e.attributes
    ([Value.entry "name" (.str e.logger), Value.entry "msg" (.str e.template),
        Value.entry "args" (.tuple e.arguments), Value.entry "levelname" (.str e.level.name),
        Value.entry "levelno" (.int e.level.weight),
        Value.entry "created" (.float e.secondsSinceEpoch),
        Value.entry "msecs" (.float (.ofInt (Int.fmod e.created 1000))),
        Value.entry "message" (.str message)] ++
      (time.map fun text => Value.entry "asctime" (.str text)).toList)

/-- The line of an event by a format, which is a template that names parts of the event. -/
def formattedLine (format : String) (e : Event) : Except DataFault String := do
  let message ← e.message
  let usesTime := Text.occursIn "%(asctime)".toList format.toList
  let time ← if usesTime then do pure (some (← e.clockText)) else pure none
  match Template.fillWith format (.ofList [.map (e.parts message time)]) with
  | .ok line => return e.withException line
  | .error (.missingKey _) => throw .wrongValue
  | .error fault => throw fault

end Event

/-! ## Setting up -/

/-- How lines are written. -/
inductive Format where
  | json (timed : Bool)
  | plain (timed : Bool)
  | custom (format : String)

def Format.line (f : Format) (e : Event) : Except DataFault String :=
  match f with
  | .json timed => e.jsonLine timed
  | .plain timed => e.plainLine timed
  | .custom format => e.formattedLine format

/-- What is asked for when a log is set up. -/
structure Request where
  /-- The least weight of what is logged. -/
  weight : Nat
  format : Option String
  timed : Bool
  structured : Bool

def Request.usual : Request := ⟨Level.info.weight, none, true, false⟩

/-- Where lines go, if anywhere: the least weight and the format. -/
structure Handler where
  weight : Nat
  format : Format

/-- How the log is set up. -/
structure Setup where
  weight : Nat
  handler : Option Handler

namespace Setup

/-- Before anything was asked for. -/
def start : Setup := ⟨0, none⟩

/-- The least weight that is logged if nothing is said. -/
def usualWeight : Nat := Level.warning.weight

def effectiveWeight (s : Setup) : Nat := if s.weight = 0 then usualWeight else s.weight

/-- Whether a template names a part anywhere: a percent sign, a name in parentheses, flags, a width
and a precision, and a letter. -/
def namesPart : List Char → Bool
  | [] => false
  | c :: rest => (c = '%' && startsPart rest) || namesPart rest
where
  isWordChar (c : Char) : Bool := c.isAlphanum || c = '_' || c.toNat ≥ 0x80
  isDigit (c : Char) : Bool := (Text.digitValue? c).isSome
  dropNumber (cs : List Char) : List Char :=
    match cs with
    | '*' :: rest => rest
    | cs => cs.dropWhile isDigit
  startsPart (cs : List Char) : Bool :=
    match cs with
    | '(' :: rest =>
      let name := rest.takeWhile isWordChar
      match rest.drop name.length with
      | ')' :: rest =>
        let rest := dropNumber (rest.dropWhile fun c => "#0+ -".toList.contains c)
        let rest := match rest with
          | '.' :: c :: more => if c = '*' || isDigit c then dropNumber (c :: more) else rest
          | rest => rest
        !name.isEmpty && rest.head?.any fun c => "diouxefgcrsa%".toList.contains c.toLower
      | _ => false
    | _ => false

def formatOf (r : Request) : Except DataFault Format :=
  if r.structured then .ok (.json r.timed)
  else match r.format.filter (!·.isEmpty) with
    | none => .ok (.plain r.timed)
    | some format =>
      if namesPart format.toList then .ok (.custom format) else .error .wrongValue

/-- Set the log up.  Only the first time says where lines go and how they are written; later ones
change the least weight alone. -/
def configure (r : Request) (s : Setup) : Except DataFault Setup := do
  match s.handler with
  | some handler => return ⟨r.weight, some handler⟩
  | none => return ⟨r.weight, some ⟨r.weight, ← formatOf r⟩⟩

end Setup
end Log
end StreamTable
