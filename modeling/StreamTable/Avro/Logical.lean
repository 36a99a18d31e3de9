/-
Logical types: what a primitive or fixed type stands for beyond its raw values.  `prepare` turns a
date, time, decimal or identifier into the raw value that is stored, and leaves every other value
as it is; `convert` turns a raw value that was read into what it stands for.
-/
import StreamTable.Avro.Schema.Parser

namespace StreamTable
namespace Avro

inductive Logical where
  | date
  | timeMillis
  | timeMicros
  | timestampMillis
  | timestampMicros
  | localTimestampMillis
  | localTimestampMicros
  | decimal
  | uuid
deriving DecidableEq

namespace Logical

/-- The logical type that attributes give a primitive type; names that do not fit the type count
for nothing. -/
def of? (p : Primitive) (attrs : Attributes) : Option Logical :=
  match Value.field? attrs "logicalType" with
  | some (.str name) =>
    match p with
    | .int =>
      if name = "date" then some .date
      else if name = "time-millis" then some .timeMillis
      else none
    | .long =>
      if name = "time-micros" then some .timeMicros
      else if name = "timestamp-millis" then some .timestampMillis
      else if name = "timestamp-micros" then some .timestampMicros
      else if name = "local-timestamp-millis" then some .localTimestampMillis
      else if name = "local-timestamp-micros" then some .localTimestampMicros
      else none
    | .bytes => if name = "decimal" then some .decimal else none
    | .string => if name = "uuid" then some .uuid else none
    | _ => none
  | _ => none

/-- An integer attribute; a boolean is zero or one. -/
def intAttribute (v : Value) : Except DataFault Int :=
  match v.asInt? with
  | some n => .ok n
  | none => .error .wrongType

/-- The scale of a decimal type, zero if none is given. -/
def scaleOf (attrs : Attributes) : Except DataFault Int :=
  match Value.field? attrs "scale" with
  | some v => intAttribute v
  | none => .ok 0

def precisionOf (attrs : Attributes) : Except DataFault Int :=
  match Value.field? attrs "precision" with
  | some v => intAttribute v
  | none => .error (.missingKey (.str "precision"))

/-- The magnitude of a decimal in units of the scale, and its sign.  Digits beyond the precision
and places beyond the scale are refused. -/
def unscaled (attrs : Attributes) (d : Decimal) : Except DataFault (Bool × Nat) := do
  let scale ← scaleOf attrs
  let precision ← precisionOf attrs
  match d with
  | .finite negative coefficient exponent =>
    if (Decimal.digitCount coefficient : Int) > precision then throw .wrongValue
    if exponent + scale < 0 then throw .wrongValue
    pure (negative, coefficient * Nat.pow 10 (exponent + scale).toNat)
  | _ => throw .wrongType

/-- The low `count` bytes of a number, the highest first. -/
def bigEndian : Nat → Nat → List UInt8
  | 0, _ => []
  | count + 1, n =>
    UInt8.ofNat (n / Nat.pow 256 count) :: bigEndian count (n % Nat.pow 256 count)

def bitLength (n : Nat) : Nat := if n = 0 then 0 else n.log2 + 1

/-- A signed number in as few bytes as its magnitude and a sign bit need. -/
def signedBytes (negative : Bool) (magnitude : Nat) : List UInt8 :=
  let count := (bitLength magnitude + 8) / 8
  if negative then bigEndian count ((Nat.pow 256 count - magnitude) % Nat.pow 256 count)
  else bigEndian count magnitude

/-- A signed number in `size` bytes; a magnitude that does not fit takes more.  A negative number
is padded with ones, and a zero with a negative sign comes out as minus two. -/
def fixedBytes (size : Nat) (negative : Bool) (magnitude : Nat) : List UInt8 :=
  let bits := bitLength magnitude + 1
  if negative then
    let padding := (Nat.pow 2 (8 * size) - 1) ^^^ (Nat.pow 2 bits - 1)
    bigEndian size ((padding ||| (Nat.pow 2 bits - magnitude)) % Nat.pow 256 size)
  else bigEndian (max size ((bits + 7) / 8)) magnitude

/-- The value of bytes as a signed number, the highest byte first. -/
def ofSignedBytes (b : List UInt8) : Int :=
  let magnitude : Nat := b.foldl (fun n x => n * 256 + x.toNat) 0
  let n : Int := magnitude
  match b with
  | first :: _ => if first ≥ 128 then n - Nat.pow 256 b.length else n
  | [] => 0

def prepare (l : Logical) (attrs : Attributes) (v : Value) : Except DataFault Value :=
  match l, v with
  | .date, .date d => .ok (.int d.sinceEpoch)
  | .date, .datetime t => .ok (.int t.date.sinceEpoch)
  | .date, .str s =>
    match Date.ofIso? s with
    | some d => .ok (.int d.sinceEpoch)
    | none => .error .wrongValue
  | .timeMillis, .time t => .ok (.int (t.micros / 1000 : Nat))
  | .timeMicros, .time t => .ok (.int t.micros)
  | .timestampMillis, .datetime t => .ok (.int (Int.fdiv t.instant 1000))
  | .timestampMicros, .datetime t => .ok (.int t.instant)
  | .localTimestampMillis, .datetime t => .ok (.int (Int.fdiv t.localMicros 1000))
  | .localTimestampMicros, .datetime t => .ok (.int t.localMicros)
  | .decimal, .decimal d => do
    let (negative, magnitude) ← unscaled attrs d
    pure (.bytes (signedBytes (negative && magnitude ≠ 0) magnitude))
  | .uuid, .uuid u => .ok (.str u.text)
  | _, v => .ok v

def isFixedDecimal (attrs : Attributes) : Bool := Schema.isDecimal attrs

def prepareFixed (size : Value) (attrs : Attributes) (v : Value) : Except DataFault Value :=
  match v with
  | .decimal d =>
    if isFixedDecimal attrs then do
      let n ← intAttribute size
      let (negative, magnitude) ← unscaled attrs d
      pure (.bytes (fixedBytes n.toNat negative magnitude))
    else .ok v
  | v => .ok v

/-- The largest number of a machine word that counts days and hours. -/
def maxCount : Int := 2147483647

def timestamp (micros : Int) (offset : Option Offset) : Except DataFault Value :=
  match DateTime.ofMicros? micros offset with
  | some t => .ok (.datetime t)
  | none => .error .overflow

def microsOf (unit : Nat) (v : Value) : Except DataFault Int :=
  match v with
  | .float x =>
    let y := Double.ofFloat (x.toFloat * (Double.ofInt unit).toFloat)
    if y.isNaN then .error .wrongValue
    else if y.isFinite then .ok (Double.roundFraction y.fraction)
    else .error .overflow
  | v =>
    match v.asInt? with
    | some n => .ok (n * unit)
    | none => .error .wrongType

/-- A time of the day from its parts. -/
def clockOf (hour minute second micro : Int) : Except DataFault Value :=
  if hour > maxCount || hour < -maxCount - 1 then .error .overflow
  else if hour < 0 then .error .wrongValue
  else
    match Clock.ofParts? hour.toNat minute.toNat second.toNat micro.toNat none with
    | some t => .ok (.time t)
    | none => .error .wrongValue

/-- A time of the day from a whole number of units, `perSecond` of them in a second. -/
def clockOfUnits (perSecond : Nat) (n : Int) : Except DataFault Value :=
  clockOf (Int.tdiv n (3600 * perSecond)) (Int.emod (Int.tdiv n (60 * perSecond)) 60)
    (Int.emod (Int.tdiv n perSecond) 60) (Int.emod n perSecond * (1000000 / perSecond : Nat))

/-- A time of the day from a number of milliseconds that need not be whole. -/
def clockOfMillis (x : Double) : Except DataFault Value :=
  if x.isNaN then .error .wrongValue
  else if !x.isFinite then .error .overflow
  else
    let (n, d) := x.fraction
    clockOf (Int.tdiv n (3600000 * d)) (Int.emod (Int.tdiv n (60000 * d)) 60)
      (Int.emod (Int.tdiv n (1000 * d)) 60) (Int.emod n (1000 * d) / d * 1000)

def convert (l : Logical) (attrs : Attributes) (v : Value) : Except DataFault Value :=
  match l with
  | .date =>
    match v.asInt? with
    | none => .error .wrongType
    | some n =>
      let day := n + Date.epochOrdinal
      if day > maxCount || day < -maxCount - 1 then .error .overflow
      else
        match Date.ofOrdinal? day with
        | some d => .ok (.date d)
        | none => .error .wrongValue
  | .timeMillis =>
    match v with
    | .float x => clockOfMillis x
    | v =>
      match v.asInt? with
      | some n => clockOfUnits 1000 n
      | none => .error .wrongType
  | .timeMicros =>
    match v.asInt? with
    | some n => clockOfUnits 1000000 n
    | none => .error .wrongType
  | .timestampMillis => do timestamp (← microsOf 1000 v) (some .universal)
  | .timestampMicros => do timestamp (← microsOf 1 v) (some .universal)
  | .localTimestampMillis => do timestamp (← microsOf 1000 v) none
  | .localTimestampMicros => do timestamp (← microsOf 1 v) none
  | .decimal =>
    match v with
    | .bytes b => do
      let scale ← scaleOf attrs
      let precision ← precisionOf attrs
      if precision < 1 then throw .wrongValue
      let n := ofSignedBytes b
      let (c, e) := Decimal.roundTo precision.toNat n.natAbs 0
      if scale > 2 * (999999 + precision) then throw .arithmetic
      pure (.decimal (.finite (n < 0) c (e - scale)))
    | _ => .error .wrongType
  | .uuid =>
    match v with
    | .str s =>
      match Uuid.ofText? s with
      | some u => .ok (.uuid u)
      | none => .error .wrongValue
    | .null => .error .wrongType
    | _ => .error .noSuchAttribute

end Logical
end Avro
end StreamTable
