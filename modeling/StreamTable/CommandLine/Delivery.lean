/-
What the program does with an opened sink.  It is one of the threads of the sink, beside the worker:
it writes the records, waits for the sink to drain, and closes it.  Before each of its steps, and
while it waits, it pauses, and in a pause the worker gets on, as far as it happens to get and with
whatever the clock happens to show.

What goes on in the pauses is given as turns, one for each pause.  A run is followed for as long as
there are turns; one that takes more pauses than that has not ended yet.
-/
import StreamTable.Record.Entry
import StreamTable.Sink.Threads
import StreamTable.Store.Writer

namespace StreamTable
namespace CommandLine

/-- What the worker does next. -/
inductive Work where
  | enter
  | take
  | expire
  | finish (clock : Readings)

/-- The move of the worker.  It waits for a record as long as the settings say; it has ended, and
makes no move any more, if they say nothing that can be waited for. -/
def Work.move? (p : Plan) : Work → Option Move
  | .enter => p.pollTimeout.toOption.map Move.enter
  | .take => some .take
  | .expire => some .expire
  | .finish clock => some (.finish clock)

/-- What goes on in a pause. -/
structure Turn where
  /-- What the worker does, one after another; it leaves out what it cannot do. -/
  work : List Work
  /-- Whether the program has waited as long as it wants to, if it waits for room in the queue. -/
  late : Bool

/-- A turn of so many iterations while the clock stands still. -/
def Turn.steady (now : Double) (iterations : Nat) : Turn where
  work := (List.replicate iterations [.enter, .take, .expire, .finish (.still now)]).flatten
  late := true

structure Delivery where
  threads : Threads Store.Writer Store.Disk
  /-- How many records were offered. -/
  offered : Nat
  /-- What goes on in the pauses that are to come. -/
  turns : List Turn

/-- A step of the program.  There is no result if the run has not ended within it. -/
abbrev Program := OptionT (Action Delivery)

namespace Program

/-- The program's number among the threads. -/
def self : Nat := 0

def get : Program Delivery := OptionT.lift Action.get

def modify (f : Delivery → Delivery) : Program Unit := OptionT.lift (Action.modify f)

def fail {α : Type} (f : Failure) : Program α := OptionT.lift (Action.fail f)

def log (e : Log.Entry) : Program Unit := OptionT.lift (Action.log e)

def lift {α : Type} (r : Except Failure α) : Program α := OptionT.lift (Action.lift r)

/-- A run that has not ended. -/
def unfinished {α : Type} : Program α := OptionT.mk (Pure.pure none)

/-- Run a step; its failure is a result. -/
def attempt {α : Type} (a : Program α) : Program (Except Failure α) := OptionT.mk do
  match ← a.run.attempt with
  | .ok (some x) => return some (.ok x)
  | .ok none => return none
  | .error f => return some (.error f)

section Steps

variable (b : Backend Store.Writer Store.Disk)

/-- Make a move.  The answer says whether it can be made. -/
def make (m : Move) : Program Bool := OptionT.mk fun d =>
  match d.threads.step b m with
  | some t => ⟨.ok (some true), { d with threads := t }, d.threads.said b m⟩
  | none => ⟨.ok (some false), d, []⟩

/-- A move of the program, which waits for ever if it cannot be made. -/
def move (m : Move) : Program Unit := do
  if !(← make b m) then unfinished

/-- The worker does something, if it can. -/
def work (w : Work) : Program Unit := do
  if let some m := w.move? (← get).threads.session.plan then
    let _ ← make b m

/-- The next turn.  The answer says whether the program has waited long enough. -/
def pause : Program Bool := do
  match (← get).turns with
  | [] => unfinished
  | turn :: rest =>
    modify fun d => { d with turns := rest }
    turn.work.forM (work b)
    return turn.late

/-- Look whether the loop runs; if it does not, nothing can be written any more. -/
def ensureRunning : Program Unit := do
  let _ ← pause b
  let l := (← get).threads.loop
  move b (.look self)
  if !l.running then fail (.sinkClosed l.lastError)

/-- Put a record into the queue once there is room for it.  While there is none, the program looks
again and again whether the loop still runs.  So many times it waits. -/
def enqueue : Nat → Program Unit
  | 0 => unfinished
  | n + 1 => do
    let late ← pause b
    if (← get).threads.session.isFull then
      if late then
        move b (.retry self)
        ensureRunning b
      enqueue n
    else move b (.reach self)

def write (r : Record) : Program Unit := do
  move b (.write self r)
  ensureRunning b
  -- There are no more pauses than turns.
  enqueue b ((← get).turns.length + 1)

/-- How long the program waits before it looks at the queue again, in seconds. -/
def pollInterval : Double := .ofScientific false 5 (-2)

/-- Wait until the queue is empty.  The answer says whether it was found so while the loop was
running, and before the time was over. -/
def awaitEmpty (timeout : Double) : Nat → Double → Program Bool
  | 0, _ => unfinished
  | n + 1, waited => do
    if waited.compare? timeout == some .lt then
      let _ ← pause b
      let l := (← get).threads.loop
      move b (.look self)
      if !l.running then return false
      let _ ← pause b
      if (← get).threads.loop.queue.isEmpty then
        move b (.reach self)
        return true
      move b (.retry self)
      awaitEmpty timeout n (waited.add pollInterval)
    else
      move b (.giveUp self)
      return false

def drain (timeout : Double) : Program Bool := do
  move b (.drain self)
  awaitEmpty b timeout ((← get).turns.length + 1) .zero

/-- Stop the loop, wait until the worker is done with its iteration, and close the table writer. -/
def close : Program Unit := do
  let _ ← pause b
  move b (.close self)
  let _ ← pause b
  let l := (← get).threads.loop
  move b (.release self)
  lift ((Loop.close b).run l).result

def offerAll : Feed → Program Unit
  | .done => return
  | .failed f => fail f
  | .skipped line cause rest => do
    log (Feed.skipEntry line cause)
    offerAll rest
  | .record r rest => do
    write b r
    modify fun d => { d with offered := d.offered + 1 }
    offerAll rest

/-- Offer the records and wait until they are taken.  The answer says whether they all are; a
failure of the sink means that they are not. -/
def deliver (timeout : Double) (feed : Feed) : Program Bool := do
  match ← attempt (offerAll b feed) with
  | .ok () => drain b timeout
  | .error f =>
    if !f.isSinkFailure then fail f
    else
      log ((Log.Entry.plain .error "Sink stopped while writing").because f.message)
      return false

/-- Deliver, and close the sink whatever comes of it; a failure of closing it counts first.  The
answer says whether all records are taken, and what has come of the delivery. -/
def deliverAndClose (timeout : Double) (feed : Feed) : Program (Bool × Delivery) := do
  let result ← attempt (deliver b timeout feed)
  close b
  return (← lift result, ← get)

end Steps

end Program
end CommandLine
end StreamTable
