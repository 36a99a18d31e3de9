/-
From a text to its tokens.  Indentation opens and closes blocks, and a token that may turn out to be
the key of a mapping is pending until a colon follows it on its line; the key's token is then put
in front of it.
-/
import StreamTable.Yaml.Token.Property

namespace StreamTable
namespace Yaml

/-- A token that is a key if a colon follows. -/
structure PendingKey where
  /-- Its place among the tokens. -/
  place : Nat
  /-- Whether it cannot be anything else. -/
  required : Bool
  line : Nat
  column : Nat
  index : Nat

structure Lexer where
  cursor : Cursor
  tokens : Array Token
  /-- The column of the innermost block, and those of the blocks around it. -/
  indent : Int
  outerIndents : List Int
  /-- Whether a key may begin here. -/
  keyAllowed : Bool
  /-- The pending key of the innermost flow collection, and those of the collections around it; the
  last is that of the blocks. -/
  pending : Option PendingKey
  outerPending : List (Option PendingKey)

namespace Lexer

def start (cs : List Char) : Lexer := ⟨.start cs, #[], -1, [], true, none, []⟩

def inFlow (l : Lexer) : Bool := !l.outerPending.isEmpty

def column (l : Lexer) : Int := l.cursor.column

def push (l : Lexer) (t : Token) : Lexer := { l with tokens := l.tokens.push t }

def insert (l : Lexer) (place : Nat) (t : Token) : Lexer :=
  { l with tokens := l.tokens.insertIdxIfInBounds place t }

def take (l : Lexer) (length : Nat) (t : Token) : Lexer :=
  { l.push t with cursor := l.cursor.skip length }

/-! ## Pending keys -/

/-- The longest distance between the start of a key and its colon. -/
def maxKeyLength : Nat := 1024

/-- Give up a pending key, unless it is required. -/
def settle : Option PendingKey → Except Fault (Option PendingKey)
  | some key => if key.required then .error .malformed else .ok none
  | none => .ok none

/-- Give up the pending key here. -/
def dropKey (l : Lexer) : Except Fault Lexer := do
  return { l with pending := ← settle l.pending }

/-- Whether a colon would come too late for a key. -/
def isStale (l : Lexer) (key : PendingKey) : Bool :=
  key.line ≠ l.cursor.line || l.cursor.index - key.index > maxKeyLength

/-- Give up the pending keys for which it is too late. -/
def dropStale (l : Lexer) : Except Fault Lexer := do
  let check (key : Option PendingKey) : Except Fault (Option PendingKey) :=
    if key.any l.isStale then settle key else .ok key
  return { l with pending := ← check l.pending, outerPending := ← l.outerPending.mapM check }

def noteKey (l : Lexer) : Except Fault Lexer := do
  if !l.keyAllowed then return l
  let l ← l.dropKey
  let c := l.cursor
  return { l with
    pending := some ⟨l.tokens.size, !l.inFlow && l.indent = l.column, c.line, c.column, c.index⟩ }

/-! ## Blocks -/

/-- How many blocks are indented further than a column, and the columns of the others. -/
def unwound (column : Int) : Int → List Int → Nat × Int × List Int
  | indent, [] => (0, indent, [])
  | indent, outer :: rest =>
    if column < indent then
      let (n, indent, rest) := unwound column outer rest
      (n + 1, indent, rest)
    else (0, indent, outer :: rest)

def closeBlocks (column : Int) (l : Lexer) : Lexer :=
  if l.inFlow then l
  else
    let (n, indent, outer) := unwound column l.indent l.outerIndents
    { l with
      tokens := l.tokens ++ Array.replicate n Token.blockEnd
      indent := indent
      outerIndents := outer }

/-- Open a block at a column if it is indented further, with a token at a place. -/
def openBlock (column : Int) (place : Nat) (t : Token) (l : Lexer) : Lexer :=
  if l.indent < column then
    { l.insert place t with indent := column, outerIndents := l.indent :: l.outerIndents }
  else l

/-- Open a block here if it is indented further than the last. -/
def openBlockHere (t : Token) (l : Lexer) : Lexer := l.openBlock l.column l.tokens.size t

/-- In a block, only where a key may begin. -/
def requireKeyAllowed (l : Lexer) : Except Fault Unit :=
  if l.inFlow || l.keyAllowed then .ok () else .error .malformed

/-! ## Tokens -/

def takeStreamEnd (l : Lexer) : Except Fault Lexer := do
  let l ← (l.closeBlocks (-1)).dropKey
  return l.push .streamEnd

def takeDirective (l : Lexer) : Except Fault Lexer := do
  let l ← (l.closeBlocks (-1)).dropKey
  let (t, c) ← Property.directive l.cursor
  return { l.push t with cursor := c, keyAllowed := false }

def takeMarker (t : Token) (l : Lexer) : Except Fault Lexer := do
  let l ← (l.closeBlocks (-1)).dropKey
  return { l.take 3 t with keyAllowed := false }

def takeFlowStart (t : Token) (l : Lexer) : Except Fault Lexer := do
  let l ← l.noteKey
  return { l.take 1 t with
    keyAllowed := true, pending := none, outerPending := l.pending :: l.outerPending }

def takeFlowEnd (t : Token) (l : Lexer) : Except Fault Lexer := do
  let l ← l.dropKey
  match l.outerPending with
  | [] => throw .malformed
  | outer :: rest =>
    return { l.take 1 t with keyAllowed := false, pending := outer, outerPending := rest }

def takeFlowEntry (l : Lexer) : Except Fault Lexer := do
  let l ← l.dropKey
  return { l.take 1 .flowEntry with keyAllowed := true }

def takeBlockEntry (l : Lexer) : Except Fault Lexer := do
  l.requireKeyAllowed
  let l := if l.inFlow then l else l.openBlockHere .blockSequenceStart
  let l ← l.dropKey
  return { l.take 1 .blockEntry with keyAllowed := true }

def takeKey (l : Lexer) : Except Fault Lexer := do
  l.requireKeyAllowed
  let l := if l.inFlow then l else l.openBlockHere .blockMappingStart
  let l ← l.dropKey
  return { l.take 1 .key with keyAllowed := !l.inFlow }

def takeValue (l : Lexer) : Except Fault Lexer := do
  match l.pending with
  | some key =>
    let l := { l.insert key.place .key with pending := none }
    let l := if l.inFlow then l else l.openBlock key.column key.place .blockMappingStart
    return { l.take 1 .value with keyAllowed := false }
  | none =>
    l.requireKeyAllowed
    let l := if l.inFlow then l else l.openBlockHere .blockMappingStart
    return { l.take 1 .value with keyAllowed := !l.inFlow }

def takeNode (read : Cursor → Except Fault (Token × Cursor)) (l : Lexer) : Except Fault Lexer := do
  let l ← l.noteKey
  let (t, c) ← read l.cursor
  return { l.push t with cursor := c, keyAllowed := false }

def takePlain (l : Lexer) : Except Fault Lexer := do
  let l ← l.noteKey
  let p := Scalar.plain l.inFlow l.indent l.cursor
  return { l.push (.scalar (String.ofList p.text) true) with
    cursor := p.cursor, keyAllowed := p.broken }

def takeBlockScalar (l : Lexer) : Except Fault Lexer := do
  let l ← l.dropKey
  let (text, c) ← Scalar.block l.indent l.cursor
  return { l.push (.scalar text false) with cursor := c, keyAllowed := true }

/-- Whether a plain scalar may begin here. -/
def startsPlain (l : Lexer) : Bool :=
  let ch := l.cursor.peek
  let isIndicator := "-?:,[]\x7b\x7d#&*!|>'\"%@`".toList.contains ch
  (!isGap ch && !isIndicator) ||
    (!isGap (l.cursor.peekAt 1) && (ch = '-' || (!l.inFlow && (ch = '?' || ch = ':'))))

/-! ## The whole text -/

/-- Go past spaces, comments and line ends.  In a block a key may begin on a new line. -/
def skipGap : Nat → Lexer → Lexer
  | 0, l => l
  | fuel + 1, l =>
    let c := l.cursor.skipSpaces
    let c := if c.peek = '#' then c.skipLine else c
    if isBreak c.peek then
      skipGap fuel { l with cursor := c.takeBreak.2, keyAllowed := l.keyAllowed || !l.inFlow }
    else { l with cursor := c }

def takeToken (l : Lexer) : Except Fault Lexer :=
  let c := l.cursor
  let ch := c.peek
  let atStart := c.column = 0
  let isApart := isGap (c.peekAt 1)
  if ch = '%' && atStart then l.takeDirective
  else if atStart && c.atMarker then
    l.takeMarker (if ch = '-' then .documentStart else .documentEnd)
  else if ch = '[' then l.takeFlowStart .flowSequenceStart
  else if ch = '\x7b' then l.takeFlowStart .flowMappingStart
  else if ch = ']' then l.takeFlowEnd .flowSequenceEnd
  else if ch = '\x7d' then l.takeFlowEnd .flowMappingEnd
  else if ch = ',' then l.takeFlowEntry
  else if ch = '-' && isApart then l.takeBlockEntry
  else if ch = '?' && (l.inFlow || isApart) then l.takeKey
  else if ch = ':' && (l.inFlow || isApart) then l.takeValue
  else if ch = '*' then l.takeNode fun c => do
    let (name, c) ← Property.name c.next
    return (.reference name, c)
  else if ch = '&' then l.takeNode fun c => do
    let (name, c) ← Property.name c.next
    return (.anchor name, c)
  else if ch = '!' then l.takeNode Property.tag
  else if (ch = '|' || ch = '>') && !l.inFlow then l.takeBlockScalar
  else if ch = '\'' || ch = '"' then l.takeNode fun c => do
    let (text, c) ← Scalar.quoted c
    return (.scalar text false, c)
  else if l.startsPlain then l.takePlain
  else .error .malformed

/-- Take tokens up to the end of the text. -/
def run : Nat → Lexer → Except Fault Lexer
  | 0, l => .ok l
  | fuel + 1, l => do
    let l ← (skipGap (l.cursor.rest.length + 1) l).dropStale
    let l := l.closeBlocks l.column
    if atEnd l.cursor.peek then l.takeStreamEnd
    else run fuel (← l.takeToken)

end Lexer

def isAllowed (c : Char) : Bool :=
  let n := c.toNat
  n = 0x9 || n = 0xA || n = 0xD || (0x20 ≤ n && n ≤ 0x7E) || n = 0x85 ||
    (0xA0 ≤ n && n ≤ 0xD7FF) || (0xE000 ≤ n && n ≤ 0xFFFD) || 0x10000 ≤ n

def tokens (cs : List Char) : Except Fault (List Token) :=
  if !cs.all isAllowed then .error .malformed
  else
    let l := Lexer.start cs
    let l := if l.cursor.peek = '\uFEFF' then { l with cursor := l.cursor.next } else l
    (l.run (cs.length + 2)).map (·.tokens.toList)

end Yaml
end StreamTable
