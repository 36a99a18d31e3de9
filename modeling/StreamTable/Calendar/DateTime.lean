/-
Points in time: a date and a time of the day, with or without an offset from universal time.
-/
import StreamTable.Calendar.Clock

namespace StreamTable

/-- A date and a time of the day; the offset stands with the time. -/
structure DateTime where
  date : Date
  clock : Clock
deriving DecidableEq, Inhabited

namespace DateTime

def textWith (sep : String) (t : DateTime) : String := t.date.text ++ sep ++ t.clock.text

def text (t : DateTime) : String := t.textWith "T"

/-- Microseconds since the epoch, the offset left out of account. -/
def localMicros (t : DateTime) : Int :=
  t.date.sinceEpoch * Clock.microsPerDay + t.clock.micros

/-- Microseconds since the epoch in universal time; without an offset the time is universal. -/
def instant (t : DateTime) : Int := t.localMicros - t.clock.lead

/-- The point in time so many microseconds after the epoch, if the calendar reaches it. -/
def ofMicros? (micros : Int) (offset : Option Offset) : Option DateTime := do
  let date ← Date.ofOrdinal? (Int.fdiv micros Clock.microsPerDay + Date.epochOrdinal)
  some ⟨date, .afterMidnight micros offset⟩

def epoch : DateTime := ⟨.epoch, .afterMidnight 0 (some .universal)⟩

/-- Read a point in time as `text` writes it. -/
def ofIso? (s : String) : Option DateTime := do
  let cs := s.toList
  let date ← Date.ofIso? (String.ofList (cs.take 10))
  let clock ← Clock.read? (cs.drop 11)
  some ⟨date, clock⟩

end DateTime
end StreamTable
