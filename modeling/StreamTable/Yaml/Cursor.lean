/-
A place in a YAML text: what is left of it, and the line and column reached.  The end of the text
is looked at as a null character, which no text holds.
-/

namespace StreamTable
namespace Yaml

def isBreak (c : Char) : Bool :=
  c = '\n' || c = '\r' || c = '\x85' || c = '\u2028' || c = '\u2029'

def atEnd (c : Char) : Bool := c = '\x00'

def endsLine (c : Char) : Bool := isBreak c || atEnd c

/-- Whether a character is a space, or the end of a line or of the text. -/
def endsWord (c : Char) : Bool := c = ' ' || endsLine c

/-- Whether a character sets an indicator apart: a space, a tab, or an end. -/
def isGap (c : Char) : Bool := c = '\t' || endsWord c

/-- Whether a character may stand in the name of an anchor, a handle or a directive. -/
def isWordChar (c : Char) : Bool :=
  ('0' ≤ c && c ≤ '9') || ('A' ≤ c && c ≤ 'Z') || ('a' ≤ c && c ≤ 'z') || c = '-' || c = '_'

def isHexDigit (c : Char) : Bool :=
  ('0' ≤ c && c ≤ '9') || ('A' ≤ c && c ≤ 'F') || ('a' ≤ c && c ≤ 'f')

structure Cursor where
  rest : List Char
  line : Nat
  column : Nat
  index : Nat

namespace Cursor

def start (cs : List Char) : Cursor := ⟨cs, 0, 0, 0⟩

/-- The character so many places ahead. -/
def peekAt (c : Cursor) (n : Nat) : Char := c.rest.getD n '\x00'

def peek (c : Cursor) : Char := c.peekAt 0

/-- Go past one character. -/
def next (c : Cursor) : Cursor :=
  match c.rest with
  | [] => c
  | ch :: rest =>
    let endsHere := ch = '\n' || ch = '\x85' || ch = '\u2028' || ch = '\u2029' ||
      (ch = '\r' && rest.head? != some '\n')
    let line := if endsHere then c.line + 1 else c.line
    let column := if endsHere then 0 else if ch = '\uFEFF' then c.column else c.column + 1
    ⟨rest, line, column, c.index + 1⟩

/-- Go past so many characters. -/
def skip (c : Cursor) : Nat → Cursor
  | 0 => c
  | n + 1 => c.next.skip n

/-- The characters up to the first that fails a test. -/
def span (c : Cursor) (p : Char → Bool) : List Char := c.rest.takeWhile p

/-- Go past the characters up to the first that fails a test. -/
def skipWhile (c : Cursor) (p : Char → Bool) : Cursor := c.skip (c.span p).length

def skipSpaces (c : Cursor) : Cursor := c.skipWhile (· = ' ')

def skipLine (c : Cursor) : Cursor := c.skipWhile fun ch => !isBreak ch

/-- Whether the text goes on with these characters. -/
def startsWith (c : Cursor) (s : String) : Bool := s.toList.isPrefixOf c.rest

/-- Whether a document starts or ends here. -/
def atMarker (c : Cursor) : Bool :=
  (c.startsWith "---" || c.startsWith "...") && isGap (c.peekAt 3)

/-- A line end, if there is one here, as the text it stands for, and the place after it. -/
def takeBreak (c : Cursor) : List Char × Cursor :=
  let ch := c.peek
  if ch = '\r' && c.peekAt 1 = '\n' then (['\n'], c.skip 2)
  else if ch = '\r' || ch = '\n' || ch = '\x85' then (['\n'], c.next)
  else if ch = '\u2028' || ch = '\u2029' then ([ch], c.next)
  else ([], c)

end Cursor
end Yaml
end StreamTable
