/-
Double precision numbers, kept as their 64 bits, so that they have decidable equality and exact
arithmetic can be done on them: a finite one is an integer times a power of two.
-/

namespace StreamTable

/-- An IEEE-754 binary64 number, given by its bits. -/
structure Double where
  bits : UInt64
deriving DecidableEq, Inhabited

namespace Double

def nan : Double := ⟨0x7FF8000000000000⟩

def infinity : Double := ⟨0x7FF0000000000000⟩

def negInfinity : Double := ⟨0xFFF0000000000000⟩

def zero : Double := ⟨0⟩

/-- All NaNs are one. -/
def ofFloat (x : Float) : Double := if x.isNaN then nan else ⟨x.toBits⟩

def toFloat (x : Double) : Float := Float.ofBits x.bits

def exponentField (x : Double) : Nat := ((x.bits >>> 52) &&& 0x7FF).toNat

def fractionField (x : Double) : Nat := (x.bits &&& 0xFFFFFFFFFFFFF).toNat

def isNegative (x : Double) : Bool := x.bits >>> 63 == 1

def isFinite (x : Double) : Bool := x.exponentField != 0x7FF

def isNaN (x : Double) : Bool := x.exponentField == 0x7FF && x.fractionField != 0

def isZero (x : Double) : Bool := x.exponentField == 0 && x.fractionField == 0

def neg (x : Double) : Double := if x.isNaN then nan else ⟨x.bits ^^^ 0x8000000000000000⟩

/-- The integer `m` with which the magnitude of a finite number is `m * 2 ^ exponent`. -/
def mantissa (x : Double) : Nat :=
  if x.exponentField = 0 then x.fractionField else Nat.pow 2 52 + x.fractionField

def exponent (x : Double) : Int :=
  if x.exponentField = 0 then -1074 else (x.exponentField : Int) - 1075

/-- A finite number as a fraction: a signed numerator over a positive denominator. -/
def fraction (x : Double) : Int × Nat :=
  let m : Int := if x.isNegative then -(x.mantissa : Int) else x.mantissa
  (m * Nat.pow 2 x.exponent.toNat, Nat.pow 2 (-x.exponent).toNat)

/-- The number nearest to `digits * 10 ^ exp`, with its sign. -/
def ofScientific (negative : Bool) (digits : Nat) (exp : Int) : Double :=
  let magnitude : Double :=
    if digits = 0 then zero
    else
      let top : Int := (toString digits).length + exp
      if top < -400 then zero
      else if top > 400 then infinity
      else ofFloat (Float.ofScientific digits (exp < 0) exp.natAbs)
  if negative then magnitude.neg else magnitude

/-- The number nearest to an integer, which may be an infinity. -/
def ofInt (n : Int) : Double := ofScientific (n < 0) n.natAbs 0

/-- The number nearest to an integer, if that is finite. -/
def ofInt? (n : Int) : Option Double :=
  let x := ofInt n
  if x.isFinite then some x else none

/-- The order of two rationals `a / b` and `c / d` with positive denominators. -/
def compareFractions (a : Int × Nat) (c : Int × Nat) : Ordering :=
  compare (a.1 * c.2) (c.1 * a.2)

/-- The order of two numbers; a NaN has none. -/
def compare? (x y : Double) : Option Ordering :=
  if x.isNaN || y.isNaN then none
  else if x.isFinite && y.isFinite then some (compareFractions x.fraction y.fraction)
  else if x = y then some .eq
  else if x = negInfinity || y = infinity then some .lt
  else some .gt

/-- The order of a number and an integer, exactly; a NaN has none. -/
def compareInt? (x : Double) (n : Int) : Option Ordering :=
  if x.isNaN then none
  else if x.isFinite then some (compareFractions x.fraction (n, 1))
  else if x.isNegative then some .lt
  else some .gt

/-- The nearest integer to a fraction, a half going to the even neighbour. -/
def roundFraction (f : Int × Nat) : Int :=
  let q := Int.fdiv f.1 f.2
  let r := Int.fmod f.1 f.2
  match compare (2 * r) f.2 with
  | .lt => q
  | .gt => q + 1
  | .eq => if q % 2 = 0 then q else q + 1

/-- The integer part of a finite number, toward zero. -/
def truncate (x : Double) : Int := Int.tdiv x.fraction.1 x.fraction.2

/-- An integer of which the first 53 binary digits are kept, the rest rounded as in a product. -/
def leadingBits (n : Int) : Int :=
  let unit := Nat.pow 2 (Nat.log2 n.natAbs - 52)
  roundFraction (n, unit) * unit

/-- A finite number of seconds in microseconds.  What is less than a second is a product of its own,
which is rounded before the nearest integer to it is taken. -/
def toMicros (x : Double) : Int :=
  let rest := leadingBits (Int.tmod x.fraction.1 x.fraction.2 * 1000000)
  x.truncate * 1000000 + roundFraction (rest, x.fraction.2)

/-- The sum of two numbers, rounded to the nearest. -/
def add (x y : Double) : Double := ofFloat (x.toFloat + y.toFloat)

/-- The difference of two numbers, rounded to the nearest. -/
def sub (x y : Double) : Double := ofFloat (x.toFloat - y.toFloat)

/-- The quotient of two numbers, rounded to the nearest. -/
def div (x y : Double) : Double := ofFloat (x.toFloat / y.toFloat)

/-- A whole number of milliseconds, in seconds. -/
def ofMillis (n : Int) : Double := (ofInt n).div (ofInt 1000)

/-- The number rounded to 32 bits. -/
def toSingle (x : Double) : Double := ofFloat x.toFloat.toFloat32.toFloat

end Double
end StreamTable
