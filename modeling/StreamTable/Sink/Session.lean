/-
An opened sink: producers put records into a bounded queue, and a worker runs the writer loop over
them.  The worker takes a record and finishes with it in two steps, between which producers may go
on; everything else about an iteration happens at once.

`Session.settle` lets the worker go on until it has nothing left to do, or until a call of a table
writer keeps it waiting.
-/
import StreamTable.Sink.Loop

namespace StreamTable

structure Session (W S : Type) where
  plan : Plan
  /-- How many records may wait, a number. -/
  capacity : Value
  loop : Loop W S
  /-- The record that the worker has taken and is not done with. -/
  inProcess : Option Record

namespace Session

variable {W S : Type}

def start (settings : Settings) (world : S) (now : Double) : Except Failure (Session W S) := do
  let plan ← Plan.ofSettings settings
  pure ⟨plan, settings.queueSize, .start world now, none⟩

def isRunning (s : Session W S) : Bool := s.loop.running

/-- Whether no more records can wait. -/
def isFull (s : Session W S) : Bool :=
  match Value.atLeast (.int s.loop.queue.length) s.capacity with
  | .ok full => full
  | .error _ => true

def offer (s : Session W S) (r : Record) : Except Failure (Session W S) :=
  if !s.isRunning then .error (.sinkClosed s.loop.lastError)
  else if s.isFull then .error .queueFull
  else .ok { s with loop := { s.loop with queue := s.loop.queue ++ [r] } }

/-- The worker takes the next record, if it is free and there is one. -/
def take (s : Session W S) : Session W S :=
  match s.inProcess, s.loop.queue with
  | none, r :: rest =>
    if s.isRunning then { s with loop := { s.loop with queue := rest }, inProcess := some r }
    else s
  | _, _ => s

/-- The worker finishes an iteration: it is done with the record that it took, or it found the
queue empty. -/
def finish (b : Backend W S) (now : Double) : Action (Session W S) Bool := fun s =>
  let queue := s.inProcess.toList ++ s.loop.queue
  let e := (Loop.inContext s.plan (Loop.nextByPlan s.plan b now)).run { s.loop with queue := queue }
  ⟨e.result, { s with loop := e.state, inProcess := none }, e.log⟩

/-- Whether the worker has nothing left to do while the clock stands still. -/
def isQuiet (now : Double) (s : Session W S) : Bool :=
  s.inProcess.isNone && s.loop.isQuiet s.plan now

/-- Let the worker go on, at most so many iterations.  `waits` tells from the worlds before and
after an iteration whether a call in it keeps the worker waiting. -/
def settleSteps (b : Backend W S) (now : Double) (waits : S → S → Bool) :
    Nat → Action (Session W S) Unit
  | 0 => pure ()
  | n + 1 => fun s =>
    if s.isQuiet now then ⟨.ok (), s, []⟩
    else
      let taken := s.take
      let e := (finish b now).run taken
      if waits s.loop.coordinator.world e.state.loop.coordinator.world then ⟨.ok (), taken, []⟩
      else
        match e.result with
        | .error _ => ⟨.ok (), e.state, e.log⟩
        | .ok _ =>
          let next := settleSteps b now waits n e.state
          ⟨next.result, next.state, e.log ++ next.log⟩

/-- Let the worker go on until it is quiet or waits. -/
def settle (b : Backend W S) (now : Double) (waits : S → S → Bool) :
    Action (Session W S) Unit := fun s =>
  settleSteps b now waits
    (s.loop.queue.length + Coordinator.patience s.plan.limit 0 + 2) s

/-- Whether the queue was found empty while the worker was running. -/
def isDrained (s : Session W S) : Bool := s.isRunning && s.loop.queue.isEmpty

/-- Stop the worker and release its table writer. -/
def close (b : Backend W S) : Action (Session W S) Unit :=
  (Loop.close b).focus loop fun l s => { s with loop := l }

end Session

/-- A sink: a session once it was opened, and what earlier sessions left. -/
structure Sink (W S : Type) where
  session : Option (Session W S)
  /-- Whether opening got as far as making a queue. -/
  hasQueue : Bool
  /-- The world of the table writers before the session. -/
  before : S
  /-- The ids that were acknowledged before the session. -/
  acknowledgedBefore : List Value

namespace Sink

variable {W S : Type}

def new (world : S) : Sink W S := ⟨none, false, world, []⟩

def world (s : Sink W S) : S :=
  (s.session.map fun session => session.loop.coordinator.world).getD s.before

/-- The ids of all records that were acknowledged, in order. -/
def acknowledged (s : Sink W S) : List Value :=
  s.acknowledgedBefore ++ (s.session.map fun session => session.loop.acknowledged).getD []

def openWith (settings : Settings) (now : Double) (s : Sink W S) :
    Except Failure Unit × Sink W S :=
  match settings.validate with
  | .error f => (.error f, s)
  | .ok () =>
    match Session.start settings s.world now with
    | .error f => (.error f, { s with hasQueue := true })
    | .ok session => (.ok (), ⟨some session, true, s.world, s.acknowledged⟩)

def isRunning (s : Sink W S) : Bool := (s.session.map Session.isRunning).getD false

/-- Whether the worker has taken a record and is not done with it. -/
def isBusy (s : Sink W S) : Bool :=
  (s.session.map fun session => session.inProcess.isSome).getD false

def offer (r : Record) : Action (Sink W S) Unit := fun s =>
  match s.session with
  | none => ⟨.error (.sinkClosed none), s, []⟩
  | some session =>
    match session.offer r with
    | .ok session => ⟨.ok (), { s with session := some session }, []⟩
    | .error f => ⟨.error f, s, []⟩

/-- Whether the records that were offered are all taken; without a queue there are none. -/
def isDrained (s : Sink W S) : Bool :=
  if s.hasQueue then (s.session.map Session.isDrained).getD false else true

def onSession {α : Type} (otherwise : α) (a : Action (Session W S) α) : Action (Sink W S) α :=
  fun s =>
    match s.session with
    | none => ⟨.ok otherwise, s, []⟩
    | some session =>
      let e := a session
      ⟨e.result, { s with session := some e.state }, e.log⟩

def settle (b : Backend W S) (now : Double) (waits : S → S → Bool) : Action (Sink W S) Unit :=
  onSession () (Session.settle b now waits)

/-- Offer records one after another, each followed by `between`. -/
def offerAll (between : Action (Sink W S) Unit) :
    List Record → Action (Sink W S) (List (Except Failure Unit))
  | [] => return []
  | r :: rest => do
    let result ← (offer r).attempt
    if let .ok () := result then between
    return result :: (← offerAll between rest)

def close (b : Backend W S) : Action (Sink W S) Unit := onSession () (Session.close b)

end Sink
end StreamTable
