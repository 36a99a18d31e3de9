/-
Equality of values as keys and symbols are compared: numbers by their value, whatever their type,
bytes by their content, maps without regard to order.  `Value.lookup` finds an entry by such an
equal key, and `Value.put` keeps the place of a key that is already there.
-/
import StreamTable.Value.Basic

namespace StreamTable
namespace Value

/-- The order of two numbers, if both are numbers and neither is NaN. -/
def compareNumbers? : Value → Value → Option Ordering
  | .float x, .float y => x.compare? y
  | .float x, .decimal d => (ofDouble? x).bind (·.compare? d)
  | .decimal d, .float x => (ofDouble? x).bind (d.compare? ·)
  | .decimal d, .decimal e => d.compare? e
  | .decimal d, v => v.asInt?.bind fun n => d.compare? (ofInteger n)
  | v, .decimal d => v.asInt?.bind fun n => (ofInteger n).compare? d
  | .float x, v => v.asInt?.bind x.compareInt?
  | v, .float x => v.asInt?.bind fun n => (x.compareInt? n).map Ordering.swap
  | v, w => v.asInt?.bind fun n => w.asInt?.map (compare n)
where
  ofInteger (n : Int) : Decimal := .finite (n < 0) n.natAbs 0
  ofDouble? (x : Double) : Option Decimal :=
    if x.isNaN then none
    else if x.isFinite then
      let (n, d) := x.fraction
      let places := d.log2
      some (.finite (n < 0) (n.natAbs * Nat.pow 5 places) (-(places : Int)))
    else some (.infinite x.isNegative)

mutual

def same : Value → Value → Bool
  | .null, .null => true
  | .str s, .str t => s == t
  | .bytes a, .bytes b => a == b
  | .bytes a, .bytearray b => a == b
  | .bytearray a, .bytes b => a == b
  | .bytearray a, .bytearray b => a == b
  | .date a, .date b => a = b
  | .datetime a, .datetime b =>
    a.clock.offset.isSome == b.clock.offset.isSome && a.instant == b.instant
  | .time a, .time b =>
    a.offset.isSome == b.offset.isSome &&
      (a.micros : Int) - a.lead == (b.micros : Int) - b.lead
  | .uuid a, .uuid b => a = b
  | .list a, .list b => sameItems a b
  | .tuple a, .tuple b => sameItems a b
  | .set a, .set b => a.length == b.length && sameMembers a b
  | .map a, .map b => a.length == b.length && sameEntries a b
  | a, b => compareNumbers? a b == some .eq

def sameItems : List Value → List Value → Bool
  | [], [] => true
  | x :: xs, y :: ys => x.same y && sameItems xs ys
  | _, _ => false

/-- Whether every item of the first list is in the second. -/
def sameMembers : List Value → List Value → Bool
  | [], _ => true
  | x :: xs, ys => ys.any (fun y => x.same y) && sameMembers xs ys

/-- Whether every entry of the first list is in the second. -/
def sameEntries : List (Value × Value) → List (Value × Value) → Bool
  | [], _ => true
  | (k, v) :: es, fs => fs.any (fun f => k.same f.1 && v.same f.2) && sameEntries es fs

end

def lookup (entries : List (Value × Value)) (key : Value) : Option Value :=
  (entries.find? fun e => key.same e.1).map (·.2)

def field? (entries : List (Value × Value)) (key : String) : Option Value :=
  lookup entries (.str key)

/-- The entries with one written: in the place of an equal key, which stays, or at the end. -/
def put (entries : List (Value × Value)) (key v : Value) : List (Value × Value) :=
  if entries.any (fun e => key.same e.1) then
    entries.map fun e => if key.same e.1 then (e.1, v) else e
  else entries ++ [(key, v)]

def erase (entries : List (Value × Value)) (key : Value) : List (Value × Value) :=
  entries.filter fun e => !key.same e.1

/-- Write entries one after another. -/
def putAll (entries added : List (Value × Value)) : List (Value × Value) :=
  added.foldl (fun es e => put es e.1 e.2) entries

/-- The map with the given pairs for entries; of equal keys the last value counts. -/
def ofPairs (pairs : List (Value × Value)) : Value := .map (putAll [] pairs)

/-- The value that a map holds under a text; nothing for any other value. -/
def get? (v : Value) (key : String) : Option Value :=
  match v with
  | .map es => field? es key
  | _ => none

def isText (v : Value) (s : String) : Bool :=
  match v with
  | .str t => t == s
  | _ => false

end Value
end StreamTable
