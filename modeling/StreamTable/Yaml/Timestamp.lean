/-
Dates and points in time as scalars spell them: a date alone, or a date, a time of the day and an
optional offset from universal time.
-/
import StreamTable.Calendar.DateTime
import StreamTable.Failure
import StreamTable.Yaml.Tag

namespace StreamTable
namespace Yaml

structure Timestamp where
  year : Nat
  month : Nat
  day : Nat
  /-- Whether the month and the day both have two digits. -/
  isFull : Bool
  /-- Hour, minute, second and microsecond. -/
  time : Option (Nat × Nat × Nat × Nat)
  /-- The offset in minutes. -/
  offset : Option Int

namespace Timestamp

/-- One or two digits, how many they are, and the rest. -/
def readOneOrTwo? (cs : List Char) : Option (Nat × Nat × List Char) :=
  match Date.readDigits? 2 cs with
  | some (n, rest) => some (n, 2, rest)
  | none => (Date.readDigits? 1 cs).map fun r => (r.1, 1, r.2)

def after? (ch : Char) : List Char → Option (List Char)
  | c :: rest => if c = ch then some rest else none
  | [] => none

def isBlank (c : Char) : Bool := c = ' ' || c = '\t'

/-- What sets the time apart from the date: a letter, or blanks. -/
def afterDate? (cs : List Char) : Option (List Char) :=
  match cs with
  | 'T' :: rest => some rest
  | 't' :: rest => some rest
  | c :: rest => if isBlank c then some (rest.dropWhile isBlank) else none
  | [] => none

/-- The digits after a point, in microseconds; further digits are cut off. -/
def readMicros : List Char → Nat × List Char
  | '.' :: rest =>
    let digits := rest.takeWhile Tag.isDigit
    let six := (digits ++ List.replicate 6 '0').take 6
    (((Date.readDigits? 6 six).map (·.1)).getD 0, rest.drop digits.length)
  | cs => (0, cs)

/-- Nothing, or an offset, to the end of the text. -/
def readOffset? (cs : List Char) : Option (Option Int) :=
  if cs.isEmpty then some none
  else match cs.dropWhile isBlank with
    | ['Z'] => some (some 0)
    | sign :: rest => do
      if sign ≠ '+' && sign ≠ '-' then none
      let (hours, _, rest) ← readOneOrTwo? rest
      let minutes ← match rest with
        | [] => some 0
        | ':' :: rest =>
          match Date.readDigits? 2 rest with
          | some (n, []) => some n
          | _ => none
        | _ => none
      let size : Int := (hours * 60 + minutes : Nat)
      some (some (if sign = '-' then -size else size))
    | [] => none

def dropLineFeed (cs : List Char) : List Char :=
  if cs.getLast? = some '\n' then cs.dropLast else cs

def read? (cs : List Char) : Option Timestamp := do
  let (year, rest) ← Date.readDigits? 4 (dropLineFeed cs)
  let (month, monthDigits, rest) ← readOneOrTwo? (← after? '-' rest)
  let (day, dayDigits, rest) ← readOneOrTwo? (← after? '-' rest)
  let isFull := monthDigits = 2 && dayDigits = 2
  if rest.isEmpty then some ⟨year, month, day, isFull, none, none⟩
  else
    let (hour, _, rest) ← readOneOrTwo? (← afterDate? rest)
    let (minute, rest) ← Date.readDigits? 2 (← after? ':' rest)
    let (second, rest) ← Date.readDigits? 2 (← after? ':' rest)
    let (micro, rest) := readMicros rest
    let offset ← readOffset? rest
    some ⟨year, month, day, isFull, some (hour, minute, second, micro), offset⟩

/-- Whether a plain scalar is taken for a timestamp. -/
def looksRight (cs : List Char) : Bool :=
  (read? cs).any fun t => t.isFull || t.time.isSome

/-- The date or the point in time, if the calendar has it. -/
def toValue? (t : Timestamp) : Option Value := do
  let offset ← match t.offset with
    | none => some none
    | some minutes => (Offset.ofMicros? (minutes * 60000000)).map some
  let date ← Date.ofYearMonthDay? t.year t.month t.day
  match t.time with
  | none => some (.date date)
  | some (hour, minute, second, micro) =>
    let clock ← Clock.ofParts? hour minute second micro offset
    some (.datetime ⟨date, clock⟩)

end Timestamp
end Yaml
end StreamTable
