/-
Universally unique identifiers: 128 bits, written as 32 hexadecimal digits in five groups.
-/
import StreamTable.Number.Reading

namespace StreamTable

/-- An identifier of 128 bits. -/
structure Uuid where
  value : Nat
deriving DecidableEq, Inhabited

namespace Uuid

/-- Five groups of lower-case digits with dashes between them. -/
def text (u : Uuid) : String :=
  let ds := Text.hexPadded 32 u.value
  let group (start count : Nat) := String.ofList ((ds.drop start).take count)
  group 0 8 ++ "-" ++ group 8 4 ++ "-" ++ group 12 4 ++ "-" ++ group 16 4 ++ "-" ++ group 20 12

/-- Every occurrence of a word removed, from left to right. -/
def removeWord (word : List Char) : Nat → List Char → List Char
  | 0, cs => cs
  | _, [] => []
  | fuel + 1, c :: rest =>
    if word.isPrefixOf (c :: rest) then removeWord word fuel ((c :: rest).drop word.length)
    else c :: removeWord word fuel rest

def isBrace (c : Char) : Bool := c = '\x7b' || c = '\x7d'

/-- Read an identifier: the marks `urn:` and `uuid:`, braces around it and dashes anywhere are
ignored, and the rest must be 32 characters that make a hexadecimal number. -/
def ofText? (s : String) : Option Uuid := do
  let cs := s.toList
  let cs := removeWord "urn:".toList cs.length cs
  let cs := removeWord "uuid:".toList cs.length cs
  let cs := ((cs.dropWhile isBrace).reverse.dropWhile isBrace).reverse
  let cs := cs.filter (· ≠ '-')
  if cs.length ≠ 32 then none
  let n ← Number.readHex? cs
  if 0 ≤ n && n < Nat.pow 2 128 then some ⟨n.toNat⟩ else none

end Uuid
end StreamTable
