/-
The decimal text of a double precision number with a given number of digits: positional, with an
exponent, or whichever is shorter.  The number is taken exactly, and a half goes to the even digit.
The texts are of magnitudes, without a sign.
-/
import StreamTable.Number.Double

namespace StreamTable
namespace Double

/-- The magnitude of a finite number as a fraction. -/
def magnitude (x : Double) : Nat × Nat := (x.fraction.1.natAbs, x.fraction.2)

/-- The nearest integer to a fraction times a power of ten. -/
def scaledDigits (f : Nat × Nat) (exp : Int) : Nat :=
  (roundFraction ((f.1 * Nat.pow 10 exp.toNat : Nat), f.2 * Nat.pow 10 (-exp).toNat)).natAbs

/-- The point and what stands behind it; a point alone is left out unless it is wanted. -/
def pointText (keepPoint : Bool) (part : List Char) : List Char :=
  if part.isEmpty && !keepPoint then [] else '.' :: part

/-- So many digits after the point. -/
def fixedText (places : Nat) (keepPoint : Bool) (x : Double) : List Char :=
  let digits := (toString (scaledDigits x.magnitude places)).toList
  let digits := List.replicate (places + 1 - digits.length) '0' ++ digits
  digits.take (digits.length - places) ++
    pointText keepPoint (digits.drop (digits.length - places))

/-- The exponent of the first digit of a fraction. -/
def leadingExponent (f : Nat × Nat) : Int :=
  if f.1 = 0 then 0
  else
    let e : Int := ((toString f.1).length : Int) - (toString f.2).length
    if f.1 * Nat.pow 10 (-e).toNat < f.2 * Nat.pow 10 e.toNat then e - 1 else e

/-- The digits of a number, one and so many more, and the exponent of the first. -/
def leadingDigits (places : Nat) (x : Double) : List Char × Int :=
  let f := x.magnitude
  let e := leadingExponent f
  let digits := (toString (scaledDigits f (places - e))).toList
  if digits.length > places + 1 then (digits.take (places + 1), e + 1)
  else (digits ++ List.replicate (places + 1 - digits.length) '0', e)

/-- An exponent with its sign and at least two digits. -/
def exponentText (e : Int) : List Char :=
  let digits := (toString e.natAbs).toList
  'e' :: (if e < 0 then '-' else '+') :: (List.replicate (2 - digits.length) '0' ++ digits)

/-- One digit before the point, so many after it, and an exponent. -/
def scientificText (places : Nat) (keepPoint : Bool) (x : Double) : List Char :=
  let (digits, e) := leadingDigits places x
  digits.take 1 ++ pointText keepPoint (digits.drop 1) ++ exponentText e

def dropZeros (digits : List Char) : List Char := (digits.reverse.dropWhile (· = '0')).reverse

/-- So many digits in all, positional if the exponent is neither less than -4 nor as large as the
number of digits; zeros at the end are left out unless the point is kept. -/
def generalText (precision : Nat) (keepPoint : Bool) (x : Double) : List Char :=
  let precision := max precision 1
  let (digits, e) := leadingDigits (precision - 1) x
  let trimmed (part : List Char) := if keepPoint then part else dropZeros part
  if -4 ≤ e && e < precision then
    if e < 0 then
      '0' :: pointText keepPoint (List.replicate (-e - 1).toNat '0' ++ trimmed digits)
    else
      digits.take (e.toNat + 1) ++ pointText keepPoint (trimmed (digits.drop (e.toNat + 1)))
  else
    digits.take 1 ++ pointText keepPoint (trimmed (digits.drop 1)) ++ exponentText e

end Double
end StreamTable
