/-
Data as a file holds them: what is left of a value when its schema says the rest.  A record is the
list of its fields in the schema's order, an enum symbol is its place among the symbols, and a
union value is the place of its branch with the branch's datum.
-/
import StreamTable.Value.Basic

namespace StreamTable
namespace Avro

inductive Datum where
  | null
  | bool (b : Bool)
  | int (n : Int)
  /-- A number of 32 bits, widened. -/
  | single (x : Double)
  | double (x : Double)
  | bytes (b : List UInt8)
  | text (s : String)
  | fixed (b : List UInt8)
  | symbol (index : Nat)
  | items (ds : List Datum)
  | entries (es : List (String × Datum))
  | fields (ds : List Datum)
  | branch (index : Nat) (d : Datum)
deriving Inhabited

end Avro
end StreamTable
