/-
Printing values as JSON text.  The text is ASCII: every other character is written as one or two
code units in hexadecimal.  Not every value has a JSON form, so printing can fail; `fallback` says
what stands for a value that has none.
-/
import StreamTable.Failure
import StreamTable.Value.Equality
import StreamTable.Value.Text

namespace StreamTable
namespace Json

/-- How the parts of a text are set apart: on one line, or each entry on a line of its own. -/
structure Layout where
  /-- Between an entry and the next. -/
  comma : String
  /-- Between a key and its value. -/
  colon : String
  /-- The blanks of one level, if entries stand on lines of their own. -/
  indent : Option Nat

/-- One line with a blank after each comma and colon. -/
def Layout.line : Layout := ⟨", ", ": ", none⟩

/-- No blanks at all. -/
def Layout.compact : Layout := ⟨",", ":", none⟩

/-- A line for each entry, two blanks deeper at each level. -/
def Layout.tree : Layout := ⟨",", ": ", some 2⟩

def unitText (n : Nat) : List Char := '\\' :: 'u' :: Text.hexPadded 4 n

def escapeChar (c : Char) : List Char :=
  if c = '"' then ['\\', '"']
  else if c = '\\' then ['\\', '\\']
  else if c = '\n' then ['\\', 'n']
  else if c = '\r' then ['\\', 'r']
  else if c = '\t' then ['\\', 't']
  else if c = '\x0c' then ['\\', 'f']
  else if c = '\x08' then ['\\', 'b']
  else
    let n := c.toNat
    if 0x20 ≤ n && n < 0x7F then [c]
    else if n < 0x10000 then unitText n
    else
      let m := n - 0x10000
      unitText (0xD800 + m / 0x400) ++ unitText (0xDC00 + m % 0x400)

def escape (cs : List Char) : List Char := cs.flatMap escapeChar

def stringText (s : String) : String :=
  String.ofList ('"' :: escape s.toList ++ ['"'])

/-- A number with its special values named. -/
def doubleText (x : Double) : String :=
  if x.isNaN then "NaN"
  else if x.isFinite then x.text
  else if x.isNegative then "-Infinity"
  else "Infinity"

/-- The text that a key of a map stands for; only texts, numbers, booleans and null are keys. -/
def keyText? : Value → Option String
  | .str s => some s
  | .int n => some (toString n)
  | .float x => some (doubleText x)
  | .bool true => some "true"
  | .bool false => some "false"
  | .null => some "null"
  | _ => none

/-- What a value without a JSON form counts as: nothing, or the string of its text. -/
abbrev Fallback := Value → Option String

def Fallback.none : Fallback := fun _ => Option.none

def Fallback.text : Fallback := fun v => some v.text

def Layout.breakAt (l : Layout) (depth : Nat) : String :=
  match l.indent with
  | some n => "\n" ++ String.ofList (List.replicate (n * depth) ' ')
  | none => ""

/-- Parts between brackets. -/
def enclose (l : Layout) (depth : Nat) (opening closing : String) (parts : List String) : String :=
  if parts.isEmpty then opening ++ closing
  else
    opening ++ l.breakAt (depth + 1) ++
      Value.joinTexts (l.comma ++ l.breakAt (depth + 1)) parts ++ l.breakAt depth ++ closing

mutual

def printAt? (l : Layout) (fallback : Fallback) (depth : Nat) : Value → Option String
  | .null => some "null"
  | .bool true => some "true"
  | .bool false => some "false"
  | .int n => some (toString n)
  | .float x => some (doubleText x)
  | .str s => some (stringText s)
  | .list xs => (printItems? l fallback (depth + 1) xs).map (enclose l depth "[" "]")
  | .tuple xs => (printItems? l fallback (depth + 1) xs).map (enclose l depth "[" "]")
  | .map es =>
    (printEntries? l fallback (depth + 1) es).map (enclose l depth "\x7b" "\x7d")
  | v => (fallback v).map stringText

def printItems? (l : Layout) (fallback : Fallback) (depth : Nat) :
    List Value → Option (List String)
  | [] => some []
  | x :: xs => do
    let t ← printAt? l fallback depth x
    let ts ← printItems? l fallback depth xs
    some (t :: ts)

def printEntries? (l : Layout) (fallback : Fallback) (depth : Nat) :
    List (Value × Value) → Option (List String)
  | [] => some []
  | (k, v) :: es => do
    let key ← keyText? k
    let t ← printAt? l fallback depth v
    let ts ← printEntries? l fallback depth es
    some ((stringText key ++ l.colon ++ t) :: ts)

end

def print? (v : Value) : Option String := printAt? .line .none 0 v

/-! ## What cannot be written -/

/-- Whether an integer has more digits than are read or written. -/
def isTooLong (n : Int) : Bool := Nat.pow 10 Number.maxDigits ≤ n.natAbs

def keyFault? (k : Value) : Option DataFault :=
  match k with
  | .int n => if isTooLong n then some .wrongValue else none
  | k => if (keyText? k).isSome then none else some .wrongType

mutual

/-- Why a value cannot be written, even if the text of a value stands for one without a JSON form:
the first key that is none, or the first integer that is too long. -/
def fault? : Value → Option DataFault
  | .int n => if isTooLong n then some .wrongValue else none
  | .list xs => itemsFault? xs
  | .tuple xs => itemsFault? xs
  | .set xs => itemsFault? xs
  | .map es => entriesFault? es
  | _ => none

def itemsFault? : List Value → Option DataFault
  | [] => none
  | x :: xs => (fault? x).or (itemsFault? xs)

def entriesFault? : List (Value × Value) → Option DataFault
  | [] => none
  | (k, v) :: es => ((keyFault? k).or (fault? v)).or (entriesFault? es)

end

mutual

/-- The document that a value denotes: what reading its JSON text gives back. -/
def document? : Value → Option Value
  | .list xs => (documents? xs).map .list
  | .tuple xs => (documents? xs).map .list
  | .map es => (documentEntries? es).map fun fields => .map (Value.putAll [] fields)
  | .null => some .null
  | .bool b => some (.bool b)
  | .int n => some (.int n)
  | .float x => some (.float x)
  | .str s => some (.str s)
  | _ => none

def documents? : List Value → Option (List Value)
  | [] => some []
  | x :: xs => do
    let d ← document? x
    let ds ← documents? xs
    some (d :: ds)

def documentEntries? : List (Value × Value) → Option (List (Value × Value))
  | [] => some []
  | (k, v) :: es => do
    let key ← keyText? k
    let d ← document? v
    let ds ← documentEntries? es
    some ((.str key, d) :: ds)

end

end Json
end StreamTable
