/-
Data as bytes.  Integers take seven bits a byte, lowest first, after being folded so that those near
zero are short, whatever their sign; texts, bytes and lists say how long they are; records are their
fields one after another.  Nothing says what type a datum has, since the schema does.
-/
import StreamTable.Avro.Datum
import StreamTable.Text.Utf8

namespace StreamTable
namespace Avro
namespace Datum

/-- Seven bits a byte, lowest first; every byte but the last has its highest bit set. -/
def sevenBits (n : Nat) : List UInt8 :=
  if n < 128 then [UInt8.ofNat n] else UInt8.ofNat (n % 128 + 128) :: sevenBits (n / 128)
termination_by n
decreasing_by omega

/-- The integers in the order 0, -1, 1, -2, 2 and so on. -/
def fold (n : Int) : Nat := if n < 0 then 2 * n.natAbs - 1 else 2 * n.natAbs

def integer (n : Int) : List UInt8 := sevenBits (fold n)

/-- The lowest `count` bytes of a number, lowest first. -/
def lowBytes : Nat → Nat → List UInt8
  | 0, _ => []
  | count + 1, n => UInt8.ofNat (n % 256) :: lowBytes count (n / 256)

/-- Bytes after their number. -/
def counted (bytes : List UInt8) : List UInt8 := integer bytes.length ++ bytes

/-- Parts in one block, or in none if there are none, and an empty block at the end. -/
def block (parts : List (List UInt8)) : List UInt8 :=
  if parts.isEmpty then integer 0
  else integer parts.length ++ parts.flatten ++ integer 0

mutual

def binary : Datum → List UInt8
  | .null => []
  | .bool b => [if b then 1 else 0]
  | .int n => integer n
  | .single x => lowBytes 4 x.toFloat.toFloat32.toBits.toNat
  | .double x => lowBytes 8 x.bits.toNat
  | .bytes b => counted b
  | .text s => counted (Text.toUtf8 s)
  | .fixed b => b
  | .symbol index => integer index
  | .items ds => block (binaries ds)
  | .entries es => block (entryBinaries es)
  | .fields ds => (binaries ds).flatten
  | .branch index d => integer index ++ binary d

def binaries : List Datum → List (List UInt8)
  | [] => []
  | d :: rest => binary d :: binaries rest

def entryBinaries : List (String × Datum) → List (List UInt8)
  | [] => []
  | (key, d) :: rest => (counted (Text.toUtf8 key) ++ binary d) :: entryBinaries rest

end

end Datum
end Avro
end StreamTable
