/-
Log contexts: attributes that every event takes on while a context is entered.  A context remembers
the one that it was entered from and goes back to it when it is left.  Attributes may not take the
names that every event has.
-/
import StreamTable.Log.Line

namespace StreamTable
namespace Log

/-- A context with its attributes, and the one that it was last entered from. -/
structure Context where
  attributes : List (Value × Value)
  previous : Option Nat

/-- The contexts that were made, by their numbers, and the one that is current. -/
structure Contexts where
  all : List Context
  current : Option Nat

namespace Contexts

def none : Contexts := ⟨[], .none⟩

/-- Make a context; attributes that are null are left out.  The answer is its number. -/
def make (attributes : List (Value × Value)) (s : Contexts) : Nat × Contexts :=
  let given := attributes.filter fun e => !e.2.isNull
  (s.all.length, { s with all := s.all ++ [⟨given, .none⟩] })

def attributes (s : Contexts) (id : Nat) : List (Value × Value) :=
  ((s.all[id]?).map (·.attributes)).getD []

def enter (id : Nat) (s : Contexts) : Contexts where
  all := s.all.modify id fun c => { c with previous := s.current }
  current := some id

/-- Leave a context: the one that it was last entered from is current again. -/
def leave (id : Nat) (s : Contexts) : Contexts :=
  { s with current := (s.all[id]?).bind (·.previous) }

def currentAttributes (s : Contexts) : List (Value × Value) :=
  (s.current.map s.attributes).getD []

end Contexts

/-- The contexts of several threads: all threads share those that were made, and each has its own
current one. -/
structure ThreadContexts where
  all : List Context
  current : Nat → Option Nat

namespace ThreadContexts

/-- Before any context was made. -/
def start : ThreadContexts := ⟨[], fun _ => none⟩

/-- The contexts as a thread sees them. -/
def seenBy (thread : Nat) (s : ThreadContexts) : Contexts := ⟨s.all, s.current thread⟩

/-- The contexts after a thread dealt with them as it sees them. -/
def act (thread : Nat) (f : Contexts → Contexts) (s : ThreadContexts) : ThreadContexts where
  all := (f (s.seenBy thread)).all
  current t := if t = thread then (f (s.seenBy thread)).current else s.current t

end ThreadContexts

/-- What a thread does with contexts. -/
inductive ContextStep where
  | make (attributes : List (Value × Value))
  | enter (id : Nat)
  | leave (id : Nat)

def ContextStep.apply : ContextStep → Contexts → Contexts
  | .make attributes, s => (s.make attributes).2
  | .enter id, s => s.enter id
  | .leave id, s => s.leave id

/-- The names that every event has. -/
def reservedNames : List String :=
  ["name", "msg", "args", "levelname", "levelno", "pathname", "filename", "module", "exc_info",
    "exc_text", "stack_info", "lineno", "funcName", "created", "msecs", "relativeCreated", "thread",
    "threadName", "processName", "process", "message", "asctime"]

def isReserved : Value → Bool
  | .str s => reservedNames.contains s
  | _ => false

/-- The names that a call gives to its own arguments, which no attribute can have as well. -/
def isArgument : Value → Bool
  | .str s => s = "logger" || s = "level" || s = "message"
  | _ => false

/-- What stands for an exception where there is none. -/
def noException : String := "NoneType: None"

/-- Log an event in a context.  The attributes of the event win over those of the context; one of
them may ask for the exception at hand, of which there is none.  Nothing is logged below the
logger's weight. -/
def emit (weight : Nat) (s : Contexts) (e : Event) : Except DataFault (Option Event) :=
  if e.attributes.any fun a => isArgument a.1 then .error .wrongType
  else if e.level.weight < weight then .ok none
  else
    let asked := ((Value.field? e.attributes "exc_info").map Value.isTruthy).getD false
    let own := Value.erase e.attributes (.str "exc_info")
    let attributes := Value.putAll s.currentAttributes own
    match attributes.find? fun a => isReserved a.1 with
    | some (name, _) => .error (.missingKey name)
    | none =>
      let exception : Option String := if asked then noException else none
      .ok (some { e with attributes := attributes, exception := exception })

end Log
end StreamTable
