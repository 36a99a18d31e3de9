/-
Reading JSON text.  The reader walks over the characters and keeps nothing but the rest of the
text; a fault is noted with the length of the rest where it shows, from which its line and column
follow.  Objects keep the order of their keys, and of two equal keys the first gives the place and
the last the value.  Beside the numbers of the format, `NaN`, `Infinity` and `-Infinity` are read.
-/
import StreamTable.Number.Reading
import StreamTable.Value.Equality

namespace StreamTable
namespace Json

/-- What is wrong with a text that is not JSON. -/
inductive Complaint where
  | value
  | propertyName
  | colon
  | comma
  | extraData
  | unterminated
  | control
  | escape
  | unicodeEscape
  | byteOrderMark
deriving DecidableEq

def Complaint.text : Complaint → String
  | .value => "Expecting value"
  | .propertyName => "Expecting property name enclosed in double quotes"
  | .colon => "Expecting ':' delimiter"
  | .comma => "Expecting ',' delimiter"
  | .extraData => "Extra data"
  | .unterminated => "Unterminated string starting at"
  | .control => "Invalid control character at"
  | .escape => "Invalid \\escape"
  | .unicodeEscape => "Invalid \\uXXXX escape"
  | .byteOrderMark => "Unexpected UTF-8 BOM (decode using utf-8-sig)"

/-- A fault with the number of characters from its place to the end of the text, or an integer of
too many digits. -/
inductive Fault where
  | malformed (complaint : Complaint) (left : Nat)
  | tooManyDigits
deriving DecidableEq

/-- A fault with its place in the text: line and column count from one, characters from zero. -/
structure Malformed where
  complaint : Complaint
  line : Nat
  column : Nat
  char : Nat
deriving DecidableEq

def Malformed.message (m : Malformed) : String :=
  m.complaint.text ++ ": line " ++ toString m.line ++ " column " ++ toString m.column ++
    " (char " ++ toString m.char ++ ")"

/-- The place of the character with the given number. -/
def Malformed.at (text : List Char) (complaint : Complaint) (char : Nat) : Malformed :=
  let before := text.take char
  let lineStart := (before.reverse.takeWhile (· ≠ '\n')).length
  ⟨complaint, before.count '\n' + 1, lineStart + 1, char⟩

/-- Why a text could not be read. -/
inductive ReadError where
  | malformed (m : Malformed)
  | tooManyDigits
deriving DecidableEq

def isSpace (c : Char) : Bool := c = ' ' || c = '\t' || c = '\n' || c = '\r'

def skipSpace (cs : List Char) : List Char := cs.dropWhile isSpace

def fail {α : Type} (complaint : Complaint) (rest : List Char) : Except Fault α :=
  .error (.malformed complaint rest.length)

def unescape? : Char → Option Char
  | '"' => some '"'
  | '\\' => some '\\'
  | '/' => some '/'
  | 'b' => some '\x08'
  | 'f' => some '\x0c'
  | 'n' => some '\n'
  | 'r' => some '\r'
  | 't' => some '\t'
  | _ => none

/-- The code unit of four hexadecimal digits. -/
def unit? (a b c d : Char) : Option Nat := do
  let a ← Text.hexDigit? a
  let b ← Text.hexDigit? b
  let c ← Text.hexDigit? c
  let d ← Text.hexDigit? d
  some (((a * 16 + b) * 16 + c) * 16 + d)

def isHighUnit (n : Nat) : Bool := 0xD800 ≤ n && n < 0xDC00

def isLowUnit (n : Nat) : Bool := 0xDC00 ≤ n && n < 0xE000

/-- A part of a string: a character, or a code unit given by its number. -/
inductive Piece where
  | char (c : Char)
  | unit (n : Nat)

/-- The character of one code unit; half of a pair stands for no character. -/
def charOfUnit (n : Nat) : Char :=
  if isHighUnit n || isLowUnit n then '\uFFFD' else Char.ofNat n

def charOfPair (high low : Nat) : Char :=
  Char.ofNat (0x10000 + (high - 0xD800) * 0x400 + (low - 0xDC00))

/-- The characters of a string: two units that make a pair are one character. -/
def joinUnits : List Piece → List Char
  | [] => []
  | .char c :: rest => c :: joinUnits rest
  | .unit high :: .unit low :: rest =>
    if isHighUnit high && isLowUnit low then charOfPair high low :: joinUnits rest
    else charOfUnit high :: joinUnits (.unit low :: rest)
  | .unit n :: rest => charOfUnit n :: joinUnits rest

/-- The parts of a string after its opening quote, and the text after the closing one.
`opening` is the length of the text from the opening quote on. -/
def readPieces (opening : Nat) (acc : List Piece) :
    List Char → Except Fault (List Piece × List Char)
  | [] => .error (.malformed .unterminated opening)
  | '"' :: rest => .ok (acc.reverse, rest)
  | ['\\'] => .error (.malformed .unterminated opening)
  | '\\' :: 'u' :: a :: b :: c :: d :: rest =>
    match unit? a b c d with
    | some n =>
      if rest.isEmpty then .error (.malformed .unicodeEscape (rest.length + 5))
      else readPieces opening (.unit n :: acc) rest
    | none => .error (.malformed .unicodeEscape (rest.length + 5))
  | '\\' :: 'u' :: rest => .error (.malformed .unicodeEscape (rest.length + 1))
  | '\\' :: c :: rest =>
    match unescape? c with
    | some u => readPieces opening (.char u :: acc) rest
    | none => .error (.malformed .escape (rest.length + 2))
  | c :: rest =>
    if c.toNat < 0x20 then .error (.malformed .control (rest.length + 1))
    else readPieces opening (.char c :: acc) rest

/-- The characters of a string after its opening quote, and the text after the closing one. -/
def readString (opening : Nat) (cs : List Char) : Except Fault (List Char × List Char) := do
  let (pieces, rest) ← readPieces opening [] cs
  .ok (joinUnits pieces, rest)

def isDigit (c : Char) : Bool := '0' ≤ c && c ≤ '9'

def digitsValue (ds : List Char) : Nat := ds.foldl (fun n c => 10 * n + (c.toNat - 48)) 0

/-- The fraction of a number: its digits, if a point and a digit follow. -/
def takeFraction : List Char → Option (List Char) × List Char
  | '.' :: d :: rest =>
    if isDigit d then (some (d :: rest.takeWhile isDigit), rest.dropWhile isDigit)
    else (none, '.' :: d :: rest)
  | cs => (none, cs)

/-- The exponent of a number, if a mark and a digit follow. -/
def takeExponent (cs : List Char) : Option Int × List Char :=
  match cs with
  | c :: rest =>
    if c = 'e' || c = 'E' then
      let (negative, body) := Number.takeSign rest
      match body with
      | d :: _ =>
        if isDigit d then
          let n : Int := digitsValue (body.takeWhile isDigit)
          (some (if negative then -n else n), body.dropWhile isDigit)
        else (none, cs)
      | [] => (none, cs)
    else (none, cs)
  | [] => (none, cs)

/-- The whole digits of a number: a zero alone, or digits that do not begin with zero. -/
def takeWhole : List Char → List Char × List Char
  | '0' :: rest => (['0'], rest)
  | cs => (cs.takeWhile isDigit, cs.dropWhile isDigit)

def readNumber (negative : Bool) (cs : List Char) : Except Fault (Value × List Char) :=
  let (whole, rest) := takeWhole cs
  let (part, rest) := takeFraction rest
  let (exp, rest) := takeExponent rest
  match part, exp with
  | none, none =>
    if whole.length > Number.maxDigits then .error .tooManyDigits
    else
      let n : Int := digitsValue whole
      .ok (.int (if negative then -n else n), rest)
  | _, _ =>
    let part := part.getD []
    let x := Double.ofScientific negative (digitsValue (whole ++ part))
      (exp.getD 0 - part.length)
    .ok (.float x, rest)

mutual

/-- The value at the head of a text, and the rest. -/
def readValue : Nat → List Char → Except Fault (Value × List Char)
  | 0, cs => fail .value cs
  | fuel + 1, cs =>
    match cs with
    | '"' :: rest => do
      let (s, rest) ← readString cs.length rest
      .ok (.str (String.ofList s), rest)
    | '\x7b' :: rest =>
      match skipSpace rest with
      | '\x7d' :: rest => .ok (.map [], rest)
      | rest => readFields fuel [] rest
    | '[' :: rest =>
      match skipSpace rest with
      | ']' :: rest => .ok (.list [], rest)
      | rest => readItems fuel [] rest
    | 'n' :: 'u' :: 'l' :: 'l' :: rest => .ok (.null, rest)
    | 't' :: 'r' :: 'u' :: 'e' :: rest => .ok (.bool true, rest)
    | 'f' :: 'a' :: 'l' :: 's' :: 'e' :: rest => .ok (.bool false, rest)
    | 'N' :: 'a' :: 'N' :: rest => .ok (.float .nan, rest)
    | 'I' :: 'n' :: 'f' :: 'i' :: 'n' :: 'i' :: 't' :: 'y' :: rest => .ok (.float .infinity, rest)
    | '-' :: 'I' :: 'n' :: 'f' :: 'i' :: 'n' :: 'i' :: 't' :: 'y' :: rest =>
      .ok (.float .negInfinity, rest)
    | '-' :: d :: rest => if isDigit d then readNumber true (d :: rest) else fail .value cs
    | d :: rest => if isDigit d then readNumber false (d :: rest) else fail .value cs
    | [] => fail .value cs

def readItems : Nat → List Value → List Char → Except Fault (Value × List Char)
  | 0, _, cs => fail .value cs
  | fuel + 1, acc, cs => do
    let (v, rest) ← readValue fuel cs
    match skipSpace rest with
    | ']' :: rest => .ok (.list (v :: acc).reverse, rest)
    | ',' :: rest => readItems fuel (v :: acc) (skipSpace rest)
    | rest => fail .comma rest

/-- The entries of an object from the first key on. -/
def readFields : Nat → List (Value × Value) → List Char → Except Fault (Value × List Char)
  | 0, _, cs => fail .value cs
  | fuel + 1, acc, cs =>
    match cs with
    | '"' :: rest => do
      let (key, rest) ← readString cs.length rest
      match skipSpace rest with
      | ':' :: rest =>
        let (v, rest) ← readValue fuel (skipSpace rest)
        let acc := Value.put acc (.str (String.ofList key)) v
        match skipSpace rest with
        | '\x7d' :: rest => .ok (.map acc, rest)
        | ',' :: rest => readFields fuel acc (skipSpace rest)
        | rest => fail .comma rest
      | rest => fail .colon rest
    | _ => fail .propertyName cs

end

/-- A whole text as one value, with blanks around it. -/
def readAll (cs : List Char) : Except Fault Value :=
  match cs with
  | '\uFEFF' :: _ => fail .byteOrderMark cs
  | _ => do
    let (v, rest) ← readValue (2 * cs.length + 2) (skipSpace cs)
    match skipSpace rest with
    | [] => .ok v
    | rest => fail .extraData rest

def read (text : String) : Except ReadError Value :=
  let cs := text.toList
  match readAll cs with
  | .ok v => .ok v
  | .error (.malformed complaint left) => .error (.malformed (.at cs complaint (cs.length - left)))
  | .error .tooManyDigits => .error .tooManyDigits

end Json
end StreamTable
