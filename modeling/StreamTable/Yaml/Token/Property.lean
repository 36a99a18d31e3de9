/-
Anchors, tags and directives as they stand in a text.
-/
import StreamTable.Text.Utf8
import StreamTable.Yaml.Token.Scalar

namespace StreamTable
namespace Yaml
namespace Property

/-- The name of an anchor or an alias, after its indicator. -/
def name (c : Cursor) : Except Fault (String × Cursor) :=
  let word := c.span isWordChar
  let c := c.skip word.length
  let follows (ch : Char) : Bool := isGap ch || "?:,]\x7d%@`".toList.contains ch
  if !word.isEmpty && follows c.peek then .ok (String.ofList word, c) else .error .malformed

def isTagChar (ch : Char) : Bool :=
  isWordChar ch || ";/?:@&=+$,.!~*'()[]%".toList.contains ch

/-- Bytes in hexadecimal, each after a percent sign. -/
def escapes : Nat → Cursor → Except Fault (List UInt8 × Cursor)
  | 0, c => .ok ([], c)
  | fuel + 1, c =>
    if c.peek = '%' then do
      let digits := c.next.rest.take 2
      if digits.length = 2 && digits.all isHexDigit then
        let (rest, c) ← escapes fuel (c.skip 3)
        pure (UInt8.ofNat (Text.numberOfHex digits) :: rest, c)
      else throw .malformed
    else .ok ([], c)

def tagChars : Nat → Cursor → Except Fault (List Char × Cursor)
  | 0, c => .ok ([], c)
  | fuel + 1, c => do
    let part := c.span fun ch => isTagChar ch && ch ≠ '%'
    let c := c.skip part.length
    if c.peek = '%' then
      let (bytes, c) ← escapes c.rest.length c
      match Text.ofUtf8? bytes with
      | none => throw .malformed
      | some s =>
        let (rest, c) ← tagChars fuel c
        pure (part ++ s.toList ++ rest, c)
    else pure (part, c)

def tagText (c : Cursor) : Except Fault (String × Cursor) := do
  let start := c
  let (cs, c) ← tagChars (c.rest.length + 1) c
  if c.index = start.index then throw .malformed
  pure (String.ofList cs, c)

/-- The handle of a tag: an exclamation mark, or a word between two of them. -/
def handle (c : Cursor) : Except Fault (String × Cursor) :=
  if c.peek ≠ '!' then .error .malformed
  else if c.peekAt 1 = ' ' then .ok ("!", c.next)
  else
    let word := c.next.span isWordChar
    let after := c.skip (word.length + 1)
    if after.peek = '!' then .ok (String.ofList ('!' :: word ++ ['!']), after.next)
    else .error .malformed

/-- Whether a second exclamation mark follows before the word ends. -/
def hasHandle (c : Cursor) : Bool :=
  (c.next.rest.takeWhile fun ch => !endsWord ch).contains '!'

def tag (c : Cursor) : Except Fault (Token × Cursor) := do
  let (token, c) ←
    if c.peekAt 1 = '<' then do
      let (text, c) ← tagText (c.skip 2)
      if c.peek ≠ '>' then throw .malformed
      pure (Token.tag none text, c.next)
    else if isGap (c.peekAt 1) then pure (Token.tag none "!", c.next)
    else do
      let (lead, c) ← if hasHandle c then handle c else pure ("!", c.next)
      let (text, c) ← tagText c
      pure (Token.tag (some lead) text, c)
  if endsWord c.peek then pure (token, c) else throw .malformed

def number (c : Cursor) : Except Fault (Nat × Cursor) :=
  let digits := c.span fun ch => '0' ≤ ch && ch ≤ '9'
  if digits.isEmpty then .error .malformed
  else .ok (digits.foldl (fun n ch => n * 10 + (ch.toNat - 48)) 0, c.skip digits.length)

def version (c : Cursor) : Except Fault (Directive × Cursor) := do
  let (major, c) ← number c.skipSpaces
  if c.peek ≠ '.' then throw .malformed
  let (_, c) ← number c.next
  if endsWord c.peek then pure (.version major, c) else throw .malformed

def tagShorthand (c : Cursor) : Except Fault (Directive × Cursor) := do
  let (lead, c) ← handle c.skipSpaces
  if c.peek ≠ ' ' then throw .malformed
  let (stem, c) ← tagText c.skipSpaces
  if endsWord c.peek then pure (.tag lead stem, c) else throw .malformed

def directive (c : Cursor) : Except Fault (Token × Cursor) := do
  let c := c.next
  let word := c.span isWordChar
  let c := c.skip word.length
  if word.isEmpty || !endsWord c.peek then throw .malformed
  let (d, c) ←
    if String.ofList word == "YAML" then version c
    else if String.ofList word == "TAG" then tagShorthand c
    else pure (Directive.other, c.skipLine)
  let c ← Scalar.restOfLine c
  pure (.directive d, c)

end Property
end Yaml
end StreamTable
