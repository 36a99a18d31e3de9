/-
Dates of the Gregorian calendar from the year 1 to the year 9999, counted in days: day 1 is the
first of January of the year 1.
-/
import StreamTable.Text.Digit

namespace StreamTable

/-- The number of the last day of the year 9999. -/
def Date.maxOrdinal : Nat := 3652059

/-- A day, given by its number. -/
structure Date where
  ordinal : Nat
  positive : 1 ≤ ordinal
  le_max : ordinal ≤ Date.maxOrdinal
deriving DecidableEq

namespace Date

def minYear : Nat := 1

def maxYear : Nat := 9999

/-- The number of the first of January 1970. -/
def epochOrdinal : Nat := 719163

def epoch : Date := ⟨epochOrdinal, by decide, by decide⟩

instance : Inhabited Date := ⟨epoch⟩

def isLeap (year : Nat) : Bool := year % 4 = 0 && (year % 100 ≠ 0 || year % 400 = 0)

/-- The days of the years before `year`. -/
def daysBeforeYear (year : Nat) : Nat :=
  let y := year - 1
  y * 365 + y / 4 - y / 100 + y / 400

def daysInMonth (year month : Nat) : Nat :=
  if month = 2 then (if isLeap year then 29 else 28)
  else if month = 4 || month = 6 || month = 9 || month = 11 then 30
  else 31

/-- The days of the months before `month` in `year`. -/
def daysBeforeMonth (year month : Nat) : Nat :=
  (List.range (month - 1)).foldl (fun days m => days + daysInMonth year (m + 1)) 0

/-- The day with a number, if it lies in the calendar. -/
def ofOrdinal? (n : Int) : Option Date :=
  if h : 1 ≤ n ∧ n ≤ maxOrdinal then some ⟨n.toNat, by omega, by omega⟩ else none

/-- A day given by year, month and day of the month, if there is one. -/
def ofYearMonthDay? (year month day : Nat) : Option Date :=
  if minYear ≤ year && year ≤ maxYear && 1 ≤ month && month ≤ 12 && 1 ≤ day &&
      day ≤ daysInMonth year month then
    ofOrdinal? (daysBeforeYear year + daysBeforeMonth year month + day : Nat)
  else none

/-- The year of a day and its place in the year, counted from zero.  The day is given by its number,
which may lie after the end of the calendar. -/
def yearAndPlace (ordinal : Nat) : Nat × Nat :=
  let n := ordinal - 1
  let n400 := n / 146097
  let n := n % 146097
  let n100 := n / 36524
  let n := n % 36524
  let n4 := n / 1461
  let n := n % 1461
  let n1 := n / 365
  let place := n % 365
  let year := n400 * 400 + n100 * 100 + n4 * 4 + n1 + 1
  if n1 = 4 || n100 = 4 then (year - 1, 365) else (year, place)

/-- The month and the day of the month, from the place in the year. -/
def monthOfPlace (year : Nat) : Nat → Nat → Nat → Nat × Nat
  | 0, month, place => (month, place + 1)
  | fuel + 1, month, place =>
    let days := daysInMonth year month
    if place < days then (month, place + 1) else monthOfPlace year fuel (month + 1) (place - days)

/-- Year, month and day of the month, from the number of a day. -/
def partsOf (ordinal : Nat) : Nat × Nat × Nat :=
  let (year, place) := yearAndPlace ordinal
  let (month, day) := monthOfPlace year 11 1 place
  (year, month, day)

def yearMonthDay (d : Date) : Nat × Nat × Nat := partsOf d.ordinal

/-- The day of the week, Monday being 0. -/
def weekday (d : Date) : Nat := (d.ordinal + 6) % 7

/-- `YYYY-MM-DD`, from the number of a day. -/
def textOf (ordinal : Nat) : String :=
  let (y, m, day) := partsOf ordinal
  Text.decimalPadded 4 y ++ "-" ++ Text.decimalPadded 2 m ++ "-" ++ Text.decimalPadded 2 day

def text (d : Date) : String := textOf d.ordinal

/-- The days since the first of January 1970. -/
def sinceEpoch (d : Date) : Int := (d.ordinal : Int) - epochOrdinal

/-- A number of exactly `count` ASCII digits at the head of a text, and the rest. -/
def readDigits? : Nat → List Char → Option (Nat × List Char)
  | 0, cs => some (0, cs)
  | count + 1, c :: rest => do
    let d ← Text.asciiDigit? c
    let (n, tail) ← readDigits? count rest
    some (d * Nat.pow 10 count + n, tail)
  | _ + 1, [] => none

/-- The Monday of the first week of a year: the week that holds its first Thursday. -/
def firstMonday (year : Nat) : Int :=
  let first : Int := daysBeforeYear year + 1
  let weekday := (first + 6) % 7
  let monday := first - weekday
  if weekday > 3 then monday + 7 else monday

/-- A day given by year, week and day of the week, if there is one. -/
def ofYearWeekDay? (year week day : Nat) : Option Date :=
  let jan1 := (daysBeforeYear year + 1 + 6) % 7
  let long := jan1 = 3 || (jan1 = 2 && isLeap year)
  if year = 0 || week = 0 || week > 53 || (week = 53 && !long) || day = 0 || day > 7 then none
  else ofOrdinal? (firstMonday year + ((week - 1) * 7 + day - 1 : Nat))

/-- The day of a week date, after its `W`. -/
def readWeekDate? (separated : Bool) (year : Nat) (cs : List Char) : Option Date := do
  let (week, rest) ← readDigits? 2 cs
  match rest with
  | [] => ofYearWeekDay? year week 1
  | c :: tail =>
    let tail ← if separated then (if c = '-' then some tail else none) else some rest
    let (day, _) ← readDigits? 1 tail
    ofYearWeekDay? year week day

/-- Read a date: year, month and day, or year, week and day, with or without dashes, in seven,
eight or ten bytes.  Without dashes, what comes after the day is ignored. -/
def ofIso? (s : String) : Option Date := do
  let cs := s.toList
  let size := s.utf8ByteSize
  if !(size = 7 || size = 8 || size = 10) then none
  let (year, rest) ← readDigits? 4 cs
  let (separated, rest) := match rest with
    | '-' :: r => (true, r)
    | r => (false, r)
  match rest with
  | 'W' :: r => readWeekDate? separated year r
  | _ =>
    let (month, rest) ← readDigits? 2 rest
    let rest ← if separated then
        match rest with
        | '-' :: r => some r
        | _ => none
      else some rest
    let (day, _) ← readDigits? 2 rest
    ofYearMonthDay? year month day

end Date
end StreamTable
