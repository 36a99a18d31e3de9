/-
Quoted text, as messages show a name or a value.  A text stands between single quotes, or between
double quotes if it holds single quotes and no double ones; the quote in use, the backslash and
every character that is not printable are escaped.
-/
import StreamTable.Text.Digit
import StreamTable.Text.Printable

namespace StreamTable
namespace Text

/-- The quote that encloses a text. -/
def quoteFor (s : List Char) : Char :=
  if s.contains '\'' && !s.contains '"' then '"' else '\''

/-- The escape of a code point that is not printable: two, four or eight digits. -/
def escapeCode (n : Nat) : List Char :=
  if n < 0x100 then '\\' :: 'x' :: hexPadded 2 n
  else if n < 0x10000 then '\\' :: 'u' :: hexPadded 4 n
  else '\\' :: 'U' :: hexPadded 8 n

def escapeQuoted (quote c : Char) : List Char :=
  if c = quote || c = '\\' then ['\\', c]
  else if c = '\n' then ['\\', 'n']
  else if c = '\r' then ['\\', 'r']
  else if c = '\t' then ['\\', 't']
  else if isPrintable c then [c]
  else escapeCode c.toNat

def quoted (s : String) : String :=
  let cs := s.toList
  let q := quoteFor cs
  String.ofList (q :: cs.flatMap (escapeQuoted q) ++ [q])

/-- The escape of everything outside ASCII in a text that is already quoted. -/
def asciiOnly (s : String) : String :=
  String.ofList (s.toList.flatMap fun c => if c.toNat < 0x80 then [c] else escapeCode c.toNat)

def escapeByte (quote : Char) (b : UInt8) : List Char :=
  let c := Char.ofNat b.toNat
  if c = quote || c = '\\' then ['\\', c]
  else if c = '\n' then ['\\', 'n']
  else if c = '\r' then ['\\', 'r']
  else if c = '\t' then ['\\', 't']
  else if 0x20 ≤ b.toNat && b.toNat < 0x7F then [c]
  else escapeCode b.toNat

/-- Bytes in quotes, after the mark `b`; `escaped` is the quote that is escaped in between, given
the one that encloses them. -/
def quotedBytesWith (escaped : Char → Char) (bytes : List UInt8) : String :=
  let q := quoteFor (bytes.map fun b => Char.ofNat b.toNat)
  String.ofList ('b' :: q :: bytes.flatMap (escapeByte (escaped q)) ++ [q])

def quotedBytes (bytes : List UInt8) : String := quotedBytesWith id bytes

/-- The bytes of an array in quotes: single quotes are escaped whatever encloses them. -/
def quotedArray (bytes : List UInt8) : String := quotedBytesWith (fun _ => '\'') bytes

end Text
end StreamTable
