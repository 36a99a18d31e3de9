/-
Values: what payloads carry, rows consist of and settings are given as.  A value is null, a
boolean, a number, a text, bytes, a point in time, a decimal, an identifier, a sequence or a map.
A map keeps the order in which its keys arrived.
-/
import StreamTable.Calendar.DateTime
import StreamTable.Number.Decimal
import StreamTable.Number.Double
import StreamTable.Uuid

namespace StreamTable

inductive Value where
  | null
  | bool (b : Bool)
  | int (n : Int)
  | float (x : Double)
  | str (s : String)
  | bytes (b : List UInt8)
  | bytearray (b : List UInt8)
  | date (d : Date)
  | datetime (t : DateTime)
  | time (t : Clock)
  | decimal (d : Decimal)
  | uuid (u : Uuid)
  | list (items : List Value)
  | tuple (items : List Value)
  | set (items : List Value)
  | map (entries : List (Value × Value))
deriving Inhabited

namespace Value

def entry (key : String) (v : Value) : Value × Value := (.str key, v)

/-- The map with the given texts for keys, in order. -/
def ofFields (fields : List (String × Value)) : Value :=
  .map (fields.map fun f => (.str f.1, f.2))

def typeName : Value → String
  | .null => "NoneType"
  | .bool _ => "bool"
  | .int _ => "int"
  | .float _ => "float"
  | .str _ => "str"
  | .bytes _ => "bytes"
  | .bytearray _ => "bytearray"
  | .date _ => "date"
  | .datetime _ => "datetime"
  | .time _ => "time"
  | .decimal _ => "Decimal"
  | .uuid _ => "UUID"
  | .list _ => "list"
  | .tuple _ => "tuple"
  | .set _ => "set"
  | .map _ => "dict"

/-- Whether a value counts as given: not null, zero, or empty. -/
def isTruthy : Value → Bool
  | .null => false
  | .bool b => b
  | .int n => n ≠ 0
  | .float x => !x.isZero
  | .str s => !s.isEmpty
  | .bytes b => !b.isEmpty
  | .bytearray b => !b.isEmpty
  | .decimal (.finite _ c _) => c ≠ 0
  | .list xs => !xs.isEmpty
  | .tuple xs => !xs.isEmpty
  | .set xs => !xs.isEmpty
  | .map es => !es.isEmpty
  | _ => true

def isNull : Value → Bool
  | .null => true
  | _ => false

def isStr : Value → Bool
  | .str _ => true
  | _ => false

def asStr? : Value → Option String
  | .str s => some s
  | _ => none

def asMap? : Value → Option (List (Value × Value))
  | .map es => some es
  | _ => none

/-- The integer that a value stands for; a boolean is zero or one. -/
def asInt? : Value → Option Int
  | .int n => some n
  | .bool b => some (if b then 1 else 0)
  | _ => none

mutual

/-- Whether a value may be a key: it holds no list, set or map and no changeable bytes. -/
def isHashable : Value → Bool
  | .bytearray _ => false
  | .list _ => false
  | .set _ => false
  | .map _ => false
  | .tuple xs => allHashable xs
  | _ => true

def allHashable : List Value → Bool
  | [] => true
  | x :: xs => x.isHashable && allHashable xs

end

end Value
end StreamTable
