/-
Numbers read from text, as settings and options give them: blanks around the number are allowed,
a sign in front of it, decimal digits of any script, and single underscores between digits.
-/
import StreamTable.Number.Double
import StreamTable.Text.Blank
import StreamTable.Text.Digit

namespace StreamTable
namespace Number

/-- The most digits an integer may be written with. -/
def maxDigits : Nat := 4300

/-- The value of a digit in a base up to 36: a decimal digit of any script or an ASCII letter. -/
def digitIn? (base : Nat) (c : Char) : Option Nat :=
  let value := match Text.digitValue? c with
    | some d => some d
    | none =>
      if 'a' ≤ c && c ≤ 'z' then some (c.toNat - 87)
      else if 'A' ≤ c && c ≤ 'Z' then some (c.toNat - 55)
      else none
  value.filter (· < base)

/-- Digits with single underscores between them, to the end of the text. -/
def readDigits? (base : Nat) : List Char → Option (List Nat)
  | [] => none
  | [c] => (digitIn? base c).map ([·])
  | c :: '_' :: rest => do
    let d ← digitIn? base c
    let ds ← readDigits? base rest
    some (d :: ds)
  | c :: rest => do
    let d ← digitIn? base c
    let ds ← readDigits? base rest
    some (d :: ds)

def ofDigits (base : Nat) (ds : List Nat) : Nat := ds.foldl (fun n d => base * n + d) 0

/-- The sign of a number and the rest of its text. -/
def takeSign : List Char → Bool × List Char
  | '-' :: rest => (true, rest)
  | '+' :: rest => (false, rest)
  | cs => (false, cs)

/-- The text after the mark of a base, if there is one: a zero and a letter. -/
def dropMark (mark : Char) : List Char → List Char
  | '0' :: c :: rest =>
    if c.toLower ≠ mark then '0' :: c :: rest
    else match rest with
      | '_' :: more => more
      | _ => rest
  | cs => cs

/-- An integer in decimal. -/
def readInt? (cs : List Char) : Option Int := do
  let (negative, body) := takeSign (Text.trimNumber cs)
  let ds ← readDigits? 10 body
  if ds.length > maxDigits then none
  let n := ofDigits 10 ds
  some (if negative then -(n : Int) else n)

/-- An integer in another base, whose mark may stand in front of the digits. -/
def readIntIn? (base : Nat) (mark : Char) (cs : List Char) : Option Int := do
  let (negative, body) := takeSign (Text.trimNumber cs)
  let ds ← readDigits? base (dropMark mark body)
  let n := ofDigits base ds
  some (if negative then -(n : Int) else n)

/-- An integer in base sixteen. -/
def readHex? (cs : List Char) : Option Int := readIntIn? 16 'x' cs

/-- The decimal digits at the head of a text, and the rest.  An underscore may stand between two
digits. -/
def takeDigits : List Char → List Nat × List Char
  | [] => ([], [])
  | c :: '_' :: d :: rest =>
    match Text.digitValue? c with
    | none => ([], c :: '_' :: d :: rest)
    | some n =>
      if (Text.digitValue? d).isSome then
        let (ds, tail) := takeDigits (d :: rest)
        (n :: ds, tail)
      else ([n], '_' :: d :: rest)
  | c :: rest =>
    match Text.digitValue? c with
    | none => ([], c :: rest)
    | some n => let (ds, tail) := takeDigits rest; (n :: ds, tail)

/-- An exponent mark with its number, or nothing, at the end of a text. -/
def readExponent? : List Char → Option Int
  | [] => some 0
  | c :: rest =>
    if c = 'e' || c = 'E' then
      let (negative, body) := takeSign rest
      match takeDigits body with
      | ([], _) => none
      | (ds, []) =>
        let n : Int := ofDigits 10 ds
        some (if negative then -n else n)
      | _ => none
    else none

/-- A number with a fraction or an exponent, an infinity, or NaN. -/
def readDouble? (cs : List Char) : Option Double :=
  let (negative, body) := takeSign (Text.trimNumber cs)
  let name := String.ofList (body.map Char.toLower)
  if name = "inf" || name = "infinity" then
    some (if negative then .negInfinity else .infinity)
  else if name = "nan" then some .nan
  else
    let (whole, rest) := takeDigits body
    let (part, rest) := match rest with
      | '.' :: more => takeDigits more
      | _ => ([], rest)
    if whole.isEmpty && part.isEmpty then none
    else (readExponent? rest).map fun e =>
      Double.ofScientific negative (ofDigits 10 (whole ++ part)) (e - part.length)

end Number
end StreamTable
