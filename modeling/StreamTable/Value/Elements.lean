/-
The values that a value is made of when it is gone through: the items of a sequence, the keys of a
map, the characters of a text, the bytes of bytes; and such values in order.
-/
import StreamTable.Value.Order

namespace StreamTable
namespace Value

def elements? : Value → Option (List Value)
  | .list xs => some xs
  | .tuple xs => some xs
  | .set xs => some xs
  | .map es => some (es.map (·.1))
  | .str s => some (s.toList.map fun c => .str (String.singleton c))
  | .bytes b => some (b.map fun n => .int n.toNat)
  | .bytearray b => some (b.map fun n => .int n.toNat)
  | _ => none

/-- The values without those that are equal to an earlier one. -/
def distinct (vs : List Value) : List Value :=
  vs.foldl (fun kept v => if kept.any v.same then kept else kept ++ [v]) []

mutual

/-- Whether a value comes before another; values of different kinds are in no order. -/
def precedes : Value → Value → Except DataFault Bool
  | .str s, .str t => .ok (s < t)
  | .bytes a, .bytes b => .ok (a < b)
  | .date a, .date b => .ok (a.ordinal < b.ordinal)
  | .datetime a, .datetime b =>
    if a.clock.offset.isSome == b.clock.offset.isSome then .ok (a.instant < b.instant)
    else .error .wrongType
  | .time a, .time b =>
    if a.offset.isSome == b.offset.isSome then
      .ok ((a.micros : Int) - a.lead < (b.micros : Int) - b.lead)
    else .error .wrongType
  | .uuid a, .uuid b => .ok (a.text < b.text)
  | .tuple a, .tuple b => precedesItems a b
  | a, b => fallsShortOf a b

/-- The order of the first items that are not equal. -/
def precedesItems : List Value → List Value → Except DataFault Bool
  | [], ys => .ok !ys.isEmpty
  | _ :: _, [] => .ok false
  | x :: xs, y :: ys => if x.same y then precedesItems xs ys else precedes x y

end

/-- Put a value behind those that do not come after it. -/
def insertInOrder (v : Value) : List Value → Except DataFault (List Value)
  | [] => .ok [v]
  | w :: ws => do
    if ← precedes v w then return v :: w :: ws else return w :: (← insertInOrder v ws)

def sorted (vs : List Value) : Except DataFault (List Value) :=
  vs.foldlM (fun sorted v => insertInOrder v sorted) []

end Value
end StreamTable
