/-
The commit window: the rows written since the last commit, when that commit was, and how many
attempts to commit failed since.  A commit is due when enough time has passed or enough rows are
pending.
-/
import StreamTable.Value.Order

namespace StreamTable

structure Window where
  records : Nat
  lastCommit : Double
  failures : Nat

namespace Window

def opened (now : Double) : Window := ⟨0, now, 0⟩

def hasPending (w : Window) : Bool := w.records > 0

def recordWritten (w : Window) : Window := { w with records := w.records + 1 }

def commitFailed (w : Window) : Window := { w with failures := w.failures + 1 }

def clearFailures (w : Window) : Window := { w with failures := 0 }

end Window

/-- When a commit is due. -/
structure Thresholds where
  /-- Seconds since the last commit. -/
  interval : Double
  /-- Rows since the last commit, a number. -/
  maxRecords : Value

namespace Thresholds

/-- Whether the time since the last commit has reached the interval. -/
def timeReached (t : Thresholds) (now lastCommit : Double) : Bool :=
  match (now.sub lastCommit).compare? t.interval with
  | some .lt => false
  | some _ => true
  | none => false

def reached (t : Thresholds) (now : Double) (records : Int) (lastCommit : Double) :
    Except DataFault Bool :=
  if t.timeReached now lastCommit then .ok true else Value.atLeast (.int records) t.maxRecords

def isDue (t : Thresholds) (now : Double) (w : Window) : Except DataFault Bool :=
  t.reached now w.records w.lastCommit

end Thresholds
end StreamTable
