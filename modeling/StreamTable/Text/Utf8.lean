/-
The two encodings of text in payloads and files: UTF-8, and one byte per character for the code
points below 256.
-/

namespace StreamTable
namespace Text

/-- The text that bytes stand for in UTF-8, if they are well formed. -/
def ofUtf8? (bytes : List UInt8) : Option String :=
  String.fromUTF8? (ByteArray.mk bytes.toArray)

/-- How many bytes follow the first byte of a character, and the least and greatest value of the one
after it. -/
def continuation? (b : UInt8) : Option (Nat × UInt8 × UInt8) :=
  if b < 0x80 then some (0, 0x80, 0xBF)
  else if b < 0xC2 then none
  else if b < 0xE0 then some (1, 0x80, 0xBF)
  else if b < 0xF0 then
    some (2, if b = 0xE0 then 0xA0 else 0x80, if b = 0xED then 0x9F else 0xBF)
  else if b < 0xF5 then
    some (3, if b = 0xF0 then 0x90 else 0x80, if b = 0xF4 then 0x8F else 0xBF)
  else none

/-- How many bytes at the head of a text can belong to it, counted from the number `n` on.  `more`
bytes are still to come of a character, the next between two values. -/
def soundLength (n more : Nat) (low high : UInt8) : List UInt8 → Nat
  | [] => n
  | b :: rest =>
    if more = 0 then
      match continuation? b with
      | some (more, low, high) => soundLength (n + 1) more low high rest
      | none => n
    else if low ≤ b && b ≤ high then soundLength (n + 1) (more - 1) 0x80 0xBF rest
    else n

/-- The text of bytes of which the last few may be the beginning of a character. -/
def textBefore (bytes : List UInt8) : String :=
  let cut (n : Nat) : Option String := ofUtf8? (bytes.take (bytes.length - n))
  ((List.range 4).findSome? cut).getD ""

def toUtf8 (s : String) : List UInt8 := s.toUTF8.toList

/-- One byte per character, if every character is below 256. -/
def toSingleBytes? (s : String) : Option (List UInt8) :=
  s.toList.mapM fun c => if c.toNat < 256 then some (UInt8.ofNat c.toNat) else none

end Text
end StreamTable
