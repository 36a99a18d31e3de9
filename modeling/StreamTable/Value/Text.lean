/-
The text of a value in messages: `text` shows a text as it is and is used where a value stands
alone, `shown` puts texts in quotes and is used inside lists and maps.
-/
import StreamTable.Number.Shortest
import StreamTable.Text.Quoted
import StreamTable.Value.Basic

namespace StreamTable
namespace Value

def joinTexts (sep : String) : List String → String
  | [] => ""
  | [s] => s
  | s :: rest => s ++ sep ++ joinTexts sep rest

/-- The parts of an offset from universal time. -/
def spanShown (micros : Int) : String :=
  let days := Int.fdiv micros 86400000000
  let rest := Int.fmod micros 86400000000
  let seconds := rest / 1000000
  let part := rest % 1000000
  let parts :=
    (if days ≠ 0 then ["days=" ++ toString days] else []) ++
    (if seconds ≠ 0 then ["seconds=" ++ toString seconds] else []) ++
    (if part ≠ 0 then ["microseconds=" ++ toString part] else [])
  "datetime.timedelta(" ++ (if parts.isEmpty then "0" else joinTexts ", " parts) ++ ")"

def offsetShown : Option Offset → String
  | none => ""
  | some o =>
    if o.micros = 0 then ", tzinfo=datetime.timezone.utc"
    else ", tzinfo=datetime.timezone(" ++ spanShown o.micros ++ ")"

/-- The parts of a time of the day, seconds and microseconds only as far as they are needed. -/
def clockParts (t : Clock) : String :=
  toString t.hour ++ ", " ++ toString t.minute ++
    (if t.second ≠ 0 || t.microsecond ≠ 0 then ", " ++ toString t.second else "") ++
    (if t.microsecond ≠ 0 then ", " ++ toString t.microsecond else "")

def dateParts (d : Date) : String :=
  let (y, m, day) := d.yearMonthDay
  toString y ++ ", " ++ toString m ++ ", " ++ toString day

mutual

def shown : Value → String
  | .null => "None"
  | .bool true => "True"
  | .bool false => "False"
  | .int n => toString n
  | .float x => x.text
  | .str s => Text.quoted s
  | .bytes b => Text.quotedBytes b
  | .bytearray b => "bytearray(" ++ Text.quotedArray b ++ ")"
  | .date d => "datetime.date(" ++ dateParts d ++ ")"
  | .datetime t =>
    "datetime.datetime(" ++ dateParts t.date ++ ", " ++ clockParts t.clock ++
      offsetShown t.clock.offset ++ ")"
  | .time t => "datetime.time(" ++ clockParts t ++ offsetShown t.offset ++ ")"
  | .decimal d => "Decimal(" ++ Text.quoted d.text ++ ")"
  | .uuid u => "UUID(" ++ Text.quoted u.text ++ ")"
  | .list xs => "[" ++ joinTexts ", " (shownItems xs) ++ "]"
  | .tuple [x] => "(" ++ x.shown ++ ",)"
  | .tuple xs => "(" ++ joinTexts ", " (shownItems xs) ++ ")"
  | .set [] => "set()"
  | .set xs => "\x7b" ++ joinTexts ", " (shownItems xs) ++ "\x7d"
  | .map es => "\x7b" ++ joinTexts ", " (shownEntries es) ++ "\x7d"

def shownItems : List Value → List String
  | [] => []
  | x :: xs => x.shown :: shownItems xs

def shownEntries : List (Value × Value) → List String
  | [] => []
  | (k, v) :: es => (k.shown ++ ": " ++ v.shown) :: shownEntries es

end

def text : Value → String
  | .str s => s
  | .date d => d.text
  | .datetime t => t.textWith " "
  | .time t => t.text
  | .decimal d => d.text
  | .uuid u => u.text
  | v => v.shown

end Value
end StreamTable
