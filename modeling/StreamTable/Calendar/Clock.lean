/-
Times of the day, to the microsecond, with or without an offset from universal time.
-/
import StreamTable.Calendar.Date

namespace StreamTable

def Clock.microsPerDay : Nat := 86400000000

/-- How far a clock is ahead of universal time, in microseconds: less than a day either way. -/
structure Offset where
  micros : Int
  lt_day : micros.natAbs < Clock.microsPerDay
deriving DecidableEq

namespace Offset

/-- The offset of universal time itself. -/
def universal : Offset := ⟨0, by decide⟩

def ofMicros? (micros : Int) : Option Offset :=
  if h : micros.natAbs < Clock.microsPerDay then some ⟨micros, h⟩ else none

/-- An offset with its sign, in hours and minutes, with seconds only if there are some. -/
def text (o : Offset) : String :=
  let m := o.micros.natAbs
  let seconds := m / 1000000 % 60
  let micros := m % 1000000
  (if o.micros < 0 then "-" else "+") ++ Text.decimalPadded 2 (m / 3600000000) ++ ":" ++
    Text.decimalPadded 2 (m / 60000000 % 60) ++
    (if seconds = 0 && micros = 0 then "" else ":" ++ Text.decimalPadded 2 seconds) ++
    (if micros = 0 then "" else "." ++ Text.decimalPadded 6 micros)

end Offset

/-- A time of the day: microseconds since midnight, and the offset from universal time if one is
given. -/
structure Clock where
  micros : Nat
  offset : Option Offset
  lt_day : micros < Clock.microsPerDay
deriving DecidableEq

namespace Clock

/-- The time of the day so many microseconds after a midnight. -/
def afterMidnight (micros : Int) (offset : Option Offset) : Clock :=
  ⟨(Int.fmod micros microsPerDay).toNat, offset, by
    have hlow : 0 ≤ Int.fmod micros microsPerDay := Int.fmod_nonneg_of_pos micros (by decide)
    have hhigh : Int.fmod micros microsPerDay < microsPerDay :=
      Int.fmod_lt_of_pos micros (by decide)
    omega⟩

instance : Inhabited Clock := ⟨afterMidnight 0 none⟩

/-- The offset in microseconds; a time without one counts as universal. -/
def lead (t : Clock) : Int := (t.offset.map Offset.micros).getD 0

def hour (t : Clock) : Nat := t.micros / 3600000000

def minute (t : Clock) : Nat := t.micros / 60000000 % 60

def second (t : Clock) : Nat := t.micros / 1000000 % 60

def microsecond (t : Clock) : Nat := t.micros % 1000000

/-- A time given by its parts, if they are in range. -/
def ofParts? (hour minute second micro : Nat) (offset : Option Offset) : Option Clock :=
  if h : hour < 24 ∧ minute < 60 ∧ second < 60 ∧ micro < 1000000 then
    some ⟨((hour * 60 + minute) * 60 + second) * 1000000 + micro, offset, by
      rw [microsPerDay]
      omega⟩
  else none

/-- `HH:MM:SS`, with six digits of the second if it is not whole. -/
def plainText (t : Clock) : String :=
  Text.decimalPadded 2 t.hour ++ ":" ++ Text.decimalPadded 2 t.minute ++ ":" ++
    Text.decimalPadded 2 t.second ++
    (if t.microsecond = 0 then "" else "." ++ Text.decimalPadded 6 t.microsecond)

def text (t : Clock) : String :=
  t.plainText ++ match t.offset with
    | some o => o.text
    | none => ""

/-- The fraction of a second after its point, in microseconds; further digits are cut off. -/
def readMicros? (cs : List Char) : Option (Nat × List Char) :=
  let fraction (rest : List Char) : Option (Nat × List Char) :=
    let digits := rest.takeWhile (fun c => (Text.asciiDigit? c).isSome)
    if digits.isEmpty then none
    else
      let six := (digits ++ List.replicate 6 '0').take 6
      (Date.readDigits? 6 six).map fun n => (n.1, rest.drop digits.length)
  match cs with
  | '.' :: rest => fraction rest
  | ',' :: rest => fraction rest
  | _ => some (0, cs)

/-- `HH:MM[:SS[.ffffff]]` at the head of a text: microseconds, and the rest. -/
def readSpan? (cs : List Char) : Option (Nat × Nat × Nat × Nat × List Char) := do
  let (hour, rest) ← Date.readDigits? 2 cs
  match rest with
  | ':' :: rest =>
    let (minute, rest) ← Date.readDigits? 2 rest
    match rest with
    | ':' :: rest =>
      let (second, rest) ← Date.readDigits? 2 rest
      let (micro, rest) ← readMicros? rest
      some (hour, minute, second, micro, rest)
    | _ => some (hour, minute, 0, 0, rest)
  | _ => none

/-- Read a time as `text` writes it. -/
def read? (cs : List Char) : Option Clock := do
  let (hour, minute, second, micro, rest) ← readSpan? cs
  match rest with
  | [] => ofParts? hour minute second micro none
  | ['Z'] => ofParts? hour minute second micro (some .universal)
  | sign :: rest =>
    if sign ≠ '+' && sign ≠ '-' then none
    else
      let (h, m, s, u, rest) ← readSpan? rest
      let size : Int := (((h * 60 + m) * 60 + s) * 1000000 + u : Nat)
      let offset ← Offset.ofMicros? (if sign = '-' then -size else size)
      if rest.isEmpty then ofParts? hour minute second micro (some offset) else none

def ofIso? (s : String) : Option Clock := read? s.toList

end Clock
end StreamTable
