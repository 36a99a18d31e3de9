/-
The threads of an opened sink.  Any number of threads write records, wait for the sink to drain, and
close it, while one worker iterates.  A move is what a thread does without another one coming in
between: a look at the loop or at the queue, putting a record into it, taking one out.

The worker holds a lock for the whole of an iteration.  In it, it waits for a record and then
handles the record that it took; other threads may move before it is done with waiting and before it
is done with the record.  Whoever closes the sink stops the loop first, without the lock, so that may
well fall into an iteration; only then does it wait for the lock, under which the table writer is
closed.
-/
import StreamTable.Sink.Session

namespace StreamTable

/-- What a thread is about. -/
inductive Errand where
  | nothing
  /-- It writes a record, and has seen that the loop runs or has yet to look. -/
  | writing (r : Record) (looked : Bool)
  /-- It waits for the sink to drain; so many records had been accepted when it began. -/
  | draining (accepted : Nat) (looked : Bool)
  /-- It closes the sink, and waits for the lock. -/
  | closing

/-- How far the worker is in an iteration. -/
inductive Stage where
  | waiting (timeout : Double)
  /-- It is done with waiting: it has taken a record, or has found none. -/
  | busy

/-- What became of a record that was taken. -/
inductive Fate where
  | written
  | dropped
  | skipped
  /-- Handling it failed before it was counted as anything. -/
  | fatal
deriving DecidableEq

/-- What became of a record, by the counts before and after it was handled. -/
def Fate.of (before after : Totals) : Fate :=
  if before.written < after.written then .written
  else if before.dropped < after.dropped then .dropped
  else if before.skipped < after.skipped then .skipped
  else .fatal

structure Threads (W S : Type) where
  session : Session W S
  /-- The iteration that the worker is in. -/
  iteration : Option Stage
  /-- What the threads besides the worker are about. -/
  errands : Nat → Errand
  /-- Whether a thread that closed the sink is done with that. -/
  closed : Bool
  /-- The records that were put into the queue, in order. -/
  accepted : List Record
  /-- The records that the worker took, in order. -/
  taken : List Record
  /-- The records that the worker is done with, in order. -/
  settled : List (Record × Fate)
  /-- How many records had been accepted when a thread began to wait that then found the sink
  drained, for each such thread. -/
  drained : List Nat

inductive Move where
  /-- A thread begins to write a record. -/
  | write (i : Nat) (r : Record)
  /-- A thread begins to wait for the sink to drain. -/
  | drain (i : Nat)
  /-- A thread begins to close the sink: it stops the loop. -/
  | close (i : Nat)
  /-- A thread looks whether the loop runs.  If it does not, writing fails, and so does waiting. -/
  | look (i : Nat)
  /-- A thread puts its record into the queue, or looks whether the queue is empty. -/
  | reach (i : Nat)
  /-- A thread that can do neither is going to look at the loop again. -/
  | retry (i : Nat)
  /-- A thread gives up: the time that it was given is over, or is none that can be waited for. -/
  | giveUp (i : Nat)
  /-- A thread that closes the sink gets the lock, and closes the table writer. -/
  | release (i : Nat)
  /-- The worker begins an iteration. -/
  | enter (timeout : Double)
  /-- The worker takes a record. -/
  | take
  /-- The worker has waited in vain, or for a time that cannot be waited for. -/
  | expire
  /-- The worker is done with an iteration. -/
  | finish (clock : Readings)

/-- The loop after what the worker did in an iteration; a failure stops it. -/
def Effect.halting {W S α : Type} (e : Effect (Loop W S) α) : Loop W S :=
  match e.result with
  | .ok _ => e.state
  | .error f => { e.state with running := false, lastError := some f }

/-- What the worker logs as it is done with an iteration, within the context of its loop. -/
def Effect.told {W S α : Type} (p : Plan) (e : Effect (Loop W S) α) : List Log.Entry :=
  let halt : List Log.Entry :=
    match e.result with
    | .ok _ => []
    | .error f => [Loop.haltEntry f]
  (e.log ++ halt).map (Log.Entry.within p.sinkName p.table)

namespace Threads

variable {W S : Type}

def start (s : Session W S) : Threads W S := ⟨s, none, fun _ => .nothing, false, [], [], [], []⟩

def loop (t : Threads W S) : Loop W S := t.session.loop

def withLoop (t : Threads W S) (l : Loop W S) : Threads W S :=
  { t with session := { t.session with loop := l } }

def withErrand (t : Threads W S) (i : Nat) (e : Errand) : Threads W S :=
  { t with errands := fun j => if j = i then e else t.errands j }

/-- Put a record into the queue. -/
def accept (t : Threads W S) (r : Record) : Threads W S :=
  { t.withLoop { t.loop with queue := t.loop.queue ++ [r] } with accepted := t.accepted ++ [r] }

/-- Whoever closed the sink is done with that. -/
def release (b : Backend W S) (t : Threads W S) : Threads W S :=
  { t.withLoop ((Loop.close b).run t.loop).state with closed := true }

/-- The worker has taken the first of the records that wait. -/
def take (r : Record) (rest : List Record) (t : Threads W S) : Threads W S :=
  { t with
    session := { t.session with loop := { t.loop with queue := rest }, inProcess := some r }
    iteration := some .busy
    taken := t.taken ++ [r] }

/-- The worker is done with an iteration. -/
def leave (t : Threads W S) (l : Loop W S) : Threads W S :=
  { t with session := { t.session with loop := l, inProcess := none }, iteration := none }

/-- The worker is done with a record. -/
def settle (b : Backend W S) (clock : Readings) (r : Record) (t : Threads W S) : Threads W S :=
  let l := ((Loop.handle t.session.plan b clock r).run t.loop).halting
  { t.leave l with
    settled := t.settled ++ [(r, .of t.loop.coordinator.totals l.coordinator.totals)] }

/-- The state after a move, if that can be made. -/
def step (b : Backend W S) (t : Threads W S) : Move → Option (Threads W S)
  | .write i r =>
    match t.errands i with
    | .nothing => some (t.withErrand i (.writing r false))
    | _ => none
  | .drain i =>
    match t.errands i with
    | .nothing => some (t.withErrand i (.draining t.accepted.length false))
    | _ => none
  | .close i =>
    match t.errands i with
    | .nothing => some ((t.withLoop t.loop.stop).withErrand i .closing)
    | _ => none
  | .look i =>
    match t.errands i with
    | .writing r false => some (t.withErrand i (if t.loop.running then .writing r true else .nothing))
    | .draining n false =>
      some (t.withErrand i (if t.loop.running then .draining n true else .nothing))
    | _ => none
  | .reach i =>
    match t.errands i with
    | .writing r true => if t.session.isFull then none else some ((t.accept r).withErrand i .nothing)
    | .draining n true =>
      if t.loop.queue.isEmpty then
        some ({ t with drained := t.drained ++ [n] }.withErrand i .nothing)
      else none
    | _ => none
  | .retry i =>
    match t.errands i with
    | .writing r true => if t.session.isFull then some (t.withErrand i (.writing r false)) else none
    | .draining n true =>
      if t.loop.queue.isEmpty then none else some (t.withErrand i (.draining n false))
    | _ => none
  | .giveUp i =>
    match t.errands i with
    | .writing _ true => some (t.withErrand i .nothing)
    | .draining _ _ => some (t.withErrand i .nothing)
    | _ => none
  | .release i =>
    match t.errands i, t.iteration with
    | .closing, none => some ((t.release b).withErrand i .nothing)
    | _, _ => none
  | .enter timeout =>
    match t.iteration with
    | none => if t.loop.running then some { t with iteration := some (.waiting timeout) } else none
    | some _ => none
  | .take =>
    match t.iteration, t.loop.queue with
    | some (.waiting timeout), r :: rest =>
      if (Loop.waitFault? timeout false).isNone then some (t.take r rest) else none
    | _, _ => none
  | .expire =>
    match t.iteration with
    | some (.waiting timeout) =>
      match Loop.waitFault? timeout t.loop.queue.isEmpty with
      | some fault =>
        some (t.leave { t.loop with running := false, lastError := some (.data fault) })
      | none => if t.loop.queue.isEmpty then some { t with iteration := some .busy } else none
    | _ => none
  | .finish clock =>
    match t.iteration, t.session.inProcess with
    | some .busy, some r => some (t.settle b clock r)
    | some .busy, none =>
      some (t.leave ((Loop.commitIfDue t.session.plan b clock).run t.loop).halting)
    | _, _ => none

/-- What is logged at a move. -/
def said (b : Backend W S) (t : Threads W S) : Move → List Log.Entry
  | .expire =>
    match t.iteration with
    | some (.waiting timeout) =>
      match Loop.waitFault? timeout t.loop.queue.isEmpty with
      | some fault =>
        ((Action.fail (.data fault) : Action (Loop W S) Unit).run t.loop).told t.session.plan
      | none => []
    | _ => []
  | .finish clock =>
    match t.session.inProcess with
    | some r => ((Loop.handle t.session.plan b clock r).run t.loop).told t.session.plan
    | none => ((Loop.commitIfDue t.session.plan b clock).run t.loop).told t.session.plan
  | .release _ => ((Loop.close b).run t.loop).log
  | _ => []

/-- The state after moves, if they can be made one after another. -/
def play (b : Backend W S) : List Move → Threads W S → Option (Threads W S)
  | [], t => some t
  | m :: moves, t => (t.step b m).bind (play b moves)

end Threads
end StreamTable
