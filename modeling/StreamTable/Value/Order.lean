/-
The order of values as thresholds use it: numbers are compared by their value, whatever their
type, and anything else cannot be compared at all.
-/
import StreamTable.Failure
import StreamTable.Value.Equality

namespace StreamTable
namespace Value

/-- Whether a value is a number; booleans are. -/
def isNumber : Value → Bool
  | .bool _ | .int _ | .float _ | .decimal _ => true
  | _ => false

/-- Whether a value is a decimal that is no number, which cannot be compared. -/
def isUndefinedDecimal : Value → Bool
  | .decimal (.nan ..) => true
  | _ => false

/-- Compare two numbers; a floating point NaN is in no order with anything. -/
def compared (accept : Ordering → Bool) (a b : Value) : Except DataFault Bool :=
  if !a.isNumber || !b.isNumber then .error .wrongType
  else if a.isUndefinedDecimal || b.isUndefinedDecimal then .error .arithmetic
  else .ok ((compareNumbers? a b).any accept)

/-- Whether the first number is at least the second. -/
def atLeast (a b : Value) : Except DataFault Bool := compared (· != .lt) a b

/-- Whether the first number is at most the second. -/
def atMost (a b : Value) : Except DataFault Bool := compared (· != .gt) a b

/-- Whether the first number is more than the second. -/
def exceeds (a b : Value) : Except DataFault Bool := compared (· == .gt) a b

/-- Whether the first number is less than the second. -/
def fallsShortOf (a b : Value) : Except DataFault Bool := compared (· == .lt) a b

end Value
end StreamTable
