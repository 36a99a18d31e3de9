/-
Files as bytes.  A data file is a container: four bytes that say what the file is, a map with the
codec and the schema, and blocks of rows.  A marker of sixteen bytes stands after the map and after
each block, so that a reader can tell where the blocks are.
-/
import StreamTable.Avro.Datum.Binary
import StreamTable.Json.Printer
import StreamTable.Store.Disk

namespace StreamTable
namespace Store

namespace Codec

/-- The most bytes that can be stored in one piece. -/
def pieceSize : Nat := 65535

/-- A piece as it is stored: whether it is the last, its size, the size with all bits turned, and
the bytes as they are. -/
def storedPiece (last : Bool) (bytes : List UInt8) : List UInt8 :=
  (if last then 1 else 0) :: Avro.Datum.lowBytes 2 bytes.length ++
    Avro.Datum.lowBytes 2 (pieceSize - bytes.length) ++ bytes

/-- Bytes in pieces, at most `fuel + 1` of them. -/
def stored : Nat → List UInt8 → List UInt8
  | 0, bytes => storedPiece true bytes
  | fuel + 1, bytes =>
    if bytes.length ≤ pieceSize then storedPiece true bytes
    else storedPiece false (bytes.take pieceSize) ++ stored fuel (bytes.drop pieceSize)

/-- The bytes of a block as they are packed.  Deflated blocks are stored without being made
smaller; the other codecs are not written. -/
def pack? : Codec → List UInt8 → Option (List UInt8)
  | .null, bytes => some bytes
  | .deflate, bytes => some (stored (bytes.length / pieceSize) bytes)
  | .bzip2, _ => none
  | .xz, _ => none

end Codec

namespace DataFile

/-- What a file begins with. -/
def opening : List UInt8 := [0x4F, 0x62, 0x6A, 0x01]

def metadata (f : DataFile) : Avro.Datum :=
  let header := (Json.printAt? .line .text 0 f.header).getD "null"
  .entries [("avro.codec", .bytes (Text.toUtf8 f.codec.name)),
    ("avro.schema", .bytes (Text.toUtf8 header))]

/-- The bytes of a file with a marker, if its codec can be written. -/
def bytes? (marker : List UInt8) (f : DataFile) : Option (List UInt8) := do
  let packed ← f.codec.pack? (f.data.map Avro.Datum.binary).flatten
  some (opening ++ f.metadata.binary ++ marker ++
    Avro.Datum.integer f.data.length ++ Avro.Datum.counted packed ++ marker)

end DataFile

def Content.bytes? (marker : List UInt8) : Content → Option (List UInt8)
  | .folder => none
  | .text s => some (Text.toUtf8 s)
  | .document v => (Json.printAt? .tree .none 0 v).map Text.toUtf8
  | .rows f => f.bytes? marker

end Store
end StreamTable
