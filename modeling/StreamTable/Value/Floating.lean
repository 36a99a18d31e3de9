/-
Floating point numbers that values stand for: any number, and texts that spell one.
-/
import StreamTable.Failure
import StreamTable.Number.Reading

namespace StreamTable
namespace Value

def doubleOfDecimal : Decimal → Except DataFault Double
  | .finite negative coefficient exponent =>
    .ok (Double.ofScientific negative coefficient exponent)
  | .infinite negative => .ok (if negative then .negInfinity else .infinity)
  | .nan _ signaling _ => if signaling then .error .wrongValue else .ok .nan

def doubleOfText (cs : List Char) : Except DataFault Double :=
  match Number.readDouble? cs with
  | some x => .ok x
  | none => .error .wrongValue

/-- The floating point number of an integer, which may be too large for one. -/
def doubleOfInt (n : Int) : Except DataFault Double :=
  match Double.ofInt? n with
  | some x => .ok x
  | none => .error .overflow

def toDouble : Value → Except DataFault Double
  | .float x => .ok x
  | .int n => doubleOfInt n
  | .bool b => doubleOfInt (if b then 1 else 0)
  | .decimal d => doubleOfDecimal d
  | .str s => doubleOfText s.toList
  | .bytes b => doubleOfText (b.map asciiChar)
  | .bytearray b => doubleOfText (b.map asciiChar)
  | _ => .error .wrongType
where
  asciiChar (b : UInt8) : Char := if b < 128 then Char.ofNat b.toNat else '?'

end Value
end StreamTable
