/-
Receipts: whether a record was acknowledged.  Acknowledging it for the first time calls whoever
waits for that; doing it again does nothing.
-/
import StreamTable.Failure

namespace StreamTable

structure Receipt where
  acknowledged : Bool
  /-- How often the one who waits was called. -/
  calls : Nat
deriving DecidableEq

namespace Receipt

def start : Receipt := ⟨false, 0⟩

/-- Acknowledge a record.  `callback` is what a call comes to, if there is anybody to call; the
record counts as acknowledged also if the call fails. -/
def acknowledge (callback : Option (Except Failure Unit)) (r : Receipt) :
    Except Failure Unit × Receipt :=
  if r.acknowledged then (.ok (), r)
  else
    match callback with
    | none => (.ok (), { r with acknowledged := true })
    | some result => (result, ⟨true, r.calls + 1⟩)

end Receipt
end StreamTable
