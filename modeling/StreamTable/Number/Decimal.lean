/-
Decimal numbers with a sign, a coefficient and an exponent of ten, as decimal columns hold them:
`1.50` and `1.5` are equal numbers and different values.
-/
import StreamTable.Text.Digit

namespace StreamTable

/-- A decimal number, or one of the special values of decimal arithmetic. -/
inductive Decimal where
  | finite (negative : Bool) (coefficient : Nat) (exponent : Int)
  | infinite (negative : Bool)
  | nan (negative signaling : Bool) (payload : Nat)
deriving DecidableEq, Inhabited

namespace Decimal

def digitCount (n : Nat) : Nat := (toString n).length

def signText (negative : Bool) : String := if negative then "-" else ""

/-- The text of a finite magnitude: positional if the exponent is not positive and the number is
not below 10^-6, otherwise with an exponent. -/
def magnitudeText (coefficient : Nat) (exponent : Int) : String :=
  let digits := toString coefficient
  let count : Int := digits.length
  let leftDigits := exponent + count
  let point := if exponent ≤ 0 && leftDigits > -6 then leftDigits else 1
  let zeros (n : Int) := String.ofList (List.replicate n.toNat '0')
  let body :=
    if point ≤ 0 then "0." ++ zeros (-point) ++ digits
    else if point ≥ count then digits ++ zeros (point - count)
    else String.ofList (digits.toList.take point.toNat) ++ "." ++
      String.ofList (digits.toList.drop point.toNat)
  if leftDigits = point then body
  else
    let e := leftDigits - point
    body ++ "E" ++ (if e < 0 then "-" else "+") ++ toString e.natAbs

def text : Decimal → String
  | .finite negative coefficient exponent =>
    signText negative ++ magnitudeText coefficient exponent
  | .infinite negative => signText negative ++ "Infinity"
  | .nan negative signaling payload =>
    signText negative ++ (if signaling then "sNaN" else "NaN") ++
      (if payload = 0 then "" else toString payload)

/-- The digits at the head of a text, and the rest. -/
def takeDigits : List Char → List Nat × List Char
  | [] => ([], [])
  | c :: rest =>
    match Text.digitValue? c with
    | some d => let (ds, tail) := takeDigits rest; (d :: ds, tail)
    | none => ([], c :: rest)

def ofDigits (ds : List Nat) : Nat := ds.foldl (fun n d => 10 * n + d) 0

/-- An exponent mark with its number, or nothing. -/
def readExponent? : List Char → Option Int
  | [] => some 0
  | c :: rest =>
    if c = 'e' || c = 'E' then
      let (negative, body) :=
        match rest with
        | '-' :: r => (true, r)
        | '+' :: r => (false, r)
        | r => (false, r)
      match takeDigits body with
      | ([], _) => none
      | (ds, []) => some (if negative then -(ofDigits ds : Int) else ofDigits ds)
      | _ => none
    else none

def readMagnitude? (negative : Bool) (cs : List Char) : Option Decimal :=
  let lower := String.ofList (cs.map Char.toLower)
  if lower = "inf" || lower = "infinity" then some (.infinite negative)
  else
    let (whole, rest) := takeDigits cs
    match rest with
    | '.' :: more =>
      let (part, rest) := takeDigits more
      if whole.isEmpty && part.isEmpty then none
      else (readExponent? rest).map fun e =>
        .finite negative (ofDigits (whole ++ part)) (e - part.length)
    | _ =>
      if whole.isEmpty then
        if lower.startsWith "snan" then
          match takeDigits (cs.drop 4) with
          | (ds, []) => some (.nan negative true (ofDigits ds))
          | _ => none
        else if lower.startsWith "nan" then
          match takeDigits (cs.drop 3) with
          | (ds, []) => some (.nan negative false (ofDigits ds))
          | _ => none
        else none
      else (readExponent? rest).map fun e => .finite negative (ofDigits whole) e

def ofText? (s : String) : Option Decimal :=
  match s.toList with
  | '-' :: rest => readMagnitude? true rest
  | '+' :: rest => readMagnitude? false rest
  | cs => readMagnitude? false cs

/-- A coefficient cut to at most `precision` digits, a half going to the even neighbour; what is
cut off goes into the exponent. -/
def roundTo (precision coefficient : Nat) (exponent : Int) : Nat × Int :=
  let drop := digitCount coefficient - precision
  if drop = 0 then (coefficient, exponent)
  else
    let unit := Nat.pow 10 drop
    let q := coefficient / unit
    let r := coefficient % unit
    let up := match compare (2 * r) unit with
      | .lt => false
      | .gt => true
      | .eq => q % 2 = 1
    let c := if up then q + 1 else q
    if digitCount c > precision then (c / 10, exponent + drop + 1) else (c, exponent + drop)

/-- The order of two decimals; a NaN has none. -/
def compare? : Decimal → Decimal → Option Ordering
  | .finite n c e, .finite n' c' e' =>
    let low := min e e'
    let a : Int := c * Nat.pow 10 (e - low).toNat
    let b : Int := c' * Nat.pow 10 (e' - low).toNat
    some (compare (if n then -a else a) (if n' then -b else b))
  | .infinite n, .infinite n' =>
    some (if n = n' then .eq else if n then .lt else .gt)
  | .infinite n, .finite .. => some (if n then .lt else .gt)
  | .finite .., .infinite n => some (if n then .gt else .lt)
  | _, _ => none

end Decimal
end StreamTable
