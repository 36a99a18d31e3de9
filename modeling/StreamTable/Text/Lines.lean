/-
Lines of a text file.  A line ends at a line feed, at a carriage return, or at the two together;
nothing else ends one, and a text that ends with a line end has no empty line after it.
-/
import StreamTable.Text.Utf8

namespace StreamTable
namespace Text

/-- Every line end written as a line feed. -/
def unifyLineEnds : List Char → List Char
  | [] => []
  | '\r' :: '\n' :: rest => '\n' :: unifyLineEnds rest
  | '\r' :: rest => '\n' :: unifyLineEnds rest
  | c :: rest => c :: unifyLineEnds rest

/-- The lines of a text whose line ends are line feeds, without the line feeds. -/
def splitLines : List Char → List (List Char)
  | [] => []
  | ['\n'] => [[]]
  | [c] => [[c]]
  | '\n' :: rest => [] :: splitLines rest
  | c :: rest =>
    match splitLines rest with
    | line :: lines => (c :: line) :: lines
    | [] => [[c]]

def lines (s : String) : List String :=
  (splitLines (unifyLineEnds s.toList)).map String.ofList

/-! ## Damaged files

A file is read in blocks.  Bytes that are no text show when the block that they are in is read, and
a character that the end cuts short shows at the end. -/

def blockSize : Nat := 8192

def lengthBeforeDamage (bytes : List UInt8) : Nat :=
  let sound := soundLength 0 0 0x80 0xBF bytes
  if sound < bytes.length then sound / blockSize * blockSize else sound

/-- The text up to its last line end.  A carriage return in the last place may be half of one. -/
def completeLines (cs : List Char) : List Char :=
  let cs := if cs.getLast? = some '\r' then cs.dropLast else cs
  ((unifyLineEnds cs).reverse.dropWhile (· ≠ '\n')).reverse

/-- The lines of a damaged file that are complete before the damage shows. -/
def linesBeforeDamage (bytes : List UInt8) : List String :=
  let text := textBefore (bytes.take (lengthBeforeDamage bytes))
  (splitLines (completeLines text.toList)).map String.ofList

end Text
end StreamTable
