/-
The decimal text of a double precision number: the fewest digits that read back as the number, of
two such the nearer, a tie going to the even digit.  Numbers from 10^-4 up to 10^16 are written
positionally, the others with an exponent of at least two digits.
-/
import StreamTable.Number.Double

namespace StreamTable

/-- The decimal number `digits * 10 ^ exp`. -/
structure Scaled where
  digits : Nat
  exp : Int
deriving DecidableEq, Inhabited

namespace Scaled

def digitCount (n : Nat) : Nat := (toString n).length

/-- The same number without zeros at the end of its digits. -/
def stripZeros (fuel : Nat) (d : Scaled) : Scaled :=
  match fuel with
  | 0 => d
  | fuel + 1 =>
    if d.digits ≠ 0 && d.digits % 10 = 0 then stripZeros fuel ⟨d.digits / 10, d.exp + 1⟩ else d

/-- The place of the decimal point, counted from the first digit. -/
def point (d : Scaled) : Int := digitCount d.digits + d.exp

end Scaled

namespace Double

/-- A finite number and the ends of the interval that rounds to it, all times one power of ten
and thereby integers: `(low, value, high, exponent of ten)`. -/
def interval (x : Double) : Nat × Nat × Nat × Int :=
  let m := x.mantissa
  let q := x.exponent - 2
  let s := Nat.pow 2 q.toNat * Nat.pow 5 (-q).toNat
  let narrow := x.fractionField == 0 && x.exponentField > 1
  ((4 * m - (if narrow then 1 else 2)) * s, 4 * m * s, (4 * m + 2) * s, min q 0)

/-- Whether `c` units lie in the interval of `x`; its ends belong to it if the mantissa is
even. -/
def covers (x : Double) (low high : Nat) (v : Nat) : Bool :=
  if x.mantissa % 2 == 0 then low ≤ v && v ≤ high else low < v && v < high

/-- The shortest digits at `n` places, if some `n`-digit number reads back. -/
def digitsAt? (x : Double) (n : Nat) : Option Scaled :=
  let (low, value, high, e) := x.interval
  let p := Scaled.digitCount value - n
  let unit := Nat.pow 10 p
  let c := value / unit
  match x.covers low high (c * unit), x.covers low high ((c + 1) * unit) with
  | true, true =>
    match compare (2 * value) ((2 * c + 1) * unit) with
    | .lt => some ⟨c, e + p⟩
    | .gt => some ⟨c + 1, e + p⟩
    | .eq => some ⟨if c % 2 = 0 then c else c + 1, e + p⟩
  | true, false => some ⟨c, e + p⟩
  | false, true => some ⟨c + 1, e + p⟩
  | false, false => none

/-- The shortest decimal that reads back as the magnitude of a finite number other than zero. -/
def shortest (x : Double) : Scaled :=
  let (_, value, _, e) := x.interval
  let found := (List.range 17).findSome? fun n => x.digitsAt? (n + 1)
  (found.getD ⟨value, e⟩).stripZeros 800

/-- The magnitude of a finite number in decimal. -/
def magnitudeText (x : Double) : String :=
  if x.isZero then "0.0"
  else
    let d := x.shortest
    let digits := toString d.digits
    let point := d.point
    if -4 < point && point ≤ 16 then
      if d.exp ≥ 0 then digits ++ String.ofList (List.replicate d.exp.toNat '0') ++ ".0"
      else if point > 0 then
        let cs := digits.toList
        String.ofList (cs.take point.toNat) ++ "." ++ String.ofList (cs.drop point.toNat)
      else "0." ++ String.ofList (List.replicate (-point).toNat '0') ++ digits
    else
      let e := point - 1
      let expDigits := toString e.natAbs
      let mark := if e < 0 then "e-" else "e+"
      let padded := if expDigits.length < 2 then "0" ++ expDigits else expDigits
      match digits.toList with
      | [d] => String.ofList [d] ++ mark ++ padded
      | d :: rest => String.ofList (d :: '.' :: rest) ++ mark ++ padded
      | [] => "0.0"

/-- The number in decimal; NaN and the infinities have names. -/
def text (x : Double) : String :=
  if x.isNaN then "nan"
  else
    let sign := if x.isNegative then "-" else ""
    if x.isFinite then sign ++ x.magnitudeText else sign ++ "inf"

end Double
end StreamTable
