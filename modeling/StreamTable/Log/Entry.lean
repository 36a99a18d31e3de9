/-
Log entries: a level, a message with what caused it, and the context that says which sink, table
and record they are about.
-/
import StreamTable.Value.Basic

namespace StreamTable
namespace Log

inductive Level where
  | debug
  | info
  | warning
  | error
  | critical
  /-- A level of one's own. -/
  | custom (name : String) (weight : Nat)
deriving DecidableEq, Inhabited

namespace Level

def name : Level → String
  | .debug => "DEBUG"
  | .info => "INFO"
  | .warning => "WARNING"
  | .error => "ERROR"
  | .critical => "CRITICAL"
  | .custom name _ => name

/-- The weight of a level: a logger shows what weighs at least as much as its own level. -/
def weight : Level → Nat
  | .debug => 10
  | .info => 20
  | .warning => 30
  | .error => 40
  | .critical => 50
  | .custom _ weight => weight

def ofName? (s : String) : Option Level :=
  if s = "DEBUG" then some .debug
  else if s = "INFO" then some .info
  else if s = "WARNING" then some .warning
  else if s = "ERROR" then some .error
  else if s = "CRITICAL" then some .critical
  else none

end Level

/-- A log entry; what its context does not say is null. -/
structure Entry where
  level : Level
  message : String
  /-- The text of the failure that is behind the entry, if there is one. -/
  cause : Option String
  messageId : Value
  sinkName : Value
  table : Value
  /-- Whether the entry takes up the context that it is logged in. -/
  contextual : Bool

namespace Entry

def plain (level : Level) (message : String) : Entry :=
  ⟨level, message, none, .null, .null, .null, false⟩

/-- An entry about a record, or about none if the id is null. -/
def about (level : Level) (message : String) (id : Value) : Entry :=
  ⟨level, message, none, id, .null, .null, true⟩

/-- The entry with the text of a failure that is behind it. -/
def because (cause : String) (e : Entry) : Entry := { e with cause := some cause }

/-- The message, and after a colon what caused it. -/
def text (e : Entry) : String :=
  match e.cause with
  | some cause => e.message ++ ": " ++ cause
  | none => e.message

/-- The entry as it shows inside the context of a sink and a table. -/
def within (sinkName table : Value) (e : Entry) : Entry :=
  if e.contextual then { e with sinkName := sinkName, table := table } else e

end Entry
end Log
end StreamTable
