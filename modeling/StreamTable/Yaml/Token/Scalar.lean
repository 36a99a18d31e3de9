/-
Scalars as they stand in a text: plain, in single or double quotes, literal and folded.  Lines of a
scalar are folded: one line end becomes a space, and of several the first is dropped.
-/
import StreamTable.Text.Digit
import StreamTable.Yaml.Cursor
import StreamTable.Yaml.Token

namespace StreamTable
namespace Yaml
namespace Scalar

def fold (first : List Char) (others : List Char) : List Char :=
  if first != ['\n'] then first ++ others
  else if others.isEmpty then [' ']
  else others

/-! ## Quoted scalars -/

/-- The line ends, with blanks before them, in a quoted scalar. -/
def quotedBreaks : Nat → Cursor → Except Fault (List Char × Cursor)
  | 0, c => .ok ([], c)
  | fuel + 1, c =>
    if c.atMarker then .error .malformed
    else
      let c := c.skipWhile fun ch => ch = ' ' || ch = '\t'
      if isBreak c.peek then do
        let (first, c) := c.takeBreak
        let (others, c) ← quotedBreaks fuel c
        pure (first ++ others, c)
      else .ok ([], c)

/-- The blanks and line ends between words of a quoted scalar. -/
def quotedSpaces (c : Cursor) : Except Fault (List Char × Cursor) := do
  let blanks := c.span fun ch => ch = ' ' || ch = '\t'
  let c := c.skip blanks.length
  if atEnd c.peek then throw .malformed
  else if isBreak c.peek then
    let (first, c) := c.takeBreak
    let (others, c) ← quotedBreaks c.rest.length c
    pure (fold first others, c)
  else pure (blanks, c)

/-- The character that a letter stands for after a backslash. -/
def escape? (ch : Char) : Option Char :=
  match ch with
  | '0' => some '\x00'
  | 'a' => some '\x07'
  | 'b' => some '\x08'
  | 't' => some '\t'
  | '\t' => some '\t'
  | 'n' => some '\n'
  | 'v' => some '\x0b'
  | 'f' => some '\x0c'
  | 'r' => some '\r'
  | 'e' => some '\x1b'
  | ' ' => some ' '
  | '"' => some '"'
  | '\\' => some '\\'
  | '/' => some '/'
  | 'N' => some '\x85'
  | '_' => some '\xA0'
  | 'L' => some '\u2028'
  | 'P' => some '\u2029'
  | _ => none

/-- How many hexadecimal digits follow a letter after a backslash. -/
def codeLength? (ch : Char) : Option Nat :=
  match ch with
  | 'x' => some 2
  | 'u' => some 4
  | 'U' => some 8
  | _ => none

def charOf (code : Nat) : Except Fault Char :=
  if code < 0x110000 then .ok (Char.ofNat code)
  else if code < Nat.pow 2 31 then .error (.data .wrongValue)
  else .error (.data .overflow)

/-- What follows a backslash in double quotes. -/
def escaped (c : Cursor) : Except Fault (List Char × Cursor) :=
  match escape? c.peek, codeLength? c.peek with
  | some ch, _ => .ok ([ch], c.next)
  | none, some n => do
    let c := c.next
    let digits := c.rest.take n
    if digits.length = n && digits.all isHexDigit then
      let ch ← charOf (Text.numberOfHex digits)
      pure ([ch], c.skip n)
    else throw .malformed
  | none, none => do
    if isBreak c.peek then
      let (_, c) := c.takeBreak
      quotedBreaks c.rest.length c
    else throw .malformed

/-- Whether a character stands for itself inside a word in quotes. -/
def isOrdinary (ch : Char) : Bool :=
  !(ch = '\'' || ch = '"' || ch = '\\' || isGap ch)

/-- A word of a quoted scalar, up to a blank, a line end or the closing quote. -/
def quotedWord (double : Bool) : Nat → Cursor → Except Fault (List Char × Cursor)
  | 0, c => .ok ([], c)
  | fuel + 1, c => do
    let plain := c.span isOrdinary
    let c := c.skip plain.length
    let ch := c.peek
    let more (piece : List Char) (c : Cursor) : Except Fault (List Char × Cursor) := do
      let (rest, c) ← quotedWord double fuel c
      pure (plain ++ piece ++ rest, c)
    if !double && ch = '\'' && c.peekAt 1 = '\'' then more ['\''] (c.skip 2)
    else if (double && ch = '\'') || (!double && (ch = '"' || ch = '\\')) then more [ch] c.next
    else if double && ch = '\\' then
      let (piece, c) ← escaped c.next
      more piece c
    else pure (plain, c)

/-- The rest of a quoted scalar after a word, up to its closing quote. -/
def quotedRest (double : Bool) (quote : Char) : Nat → Cursor → Except Fault (List Char × Cursor)
  | 0, _ => .error .malformed
  | fuel + 1, c => do
    if c.peek = quote then pure ([], c.next)
    else
      let (blanks, c) ← quotedSpaces c
      let (word, c) ← quotedWord double (c.rest.length + 1) c
      let (rest, c) ← quotedRest double quote fuel c
      pure (blanks ++ word ++ rest, c)

def quoted (c : Cursor) : Except Fault (String × Cursor) := do
  let quote := c.peek
  let double := quote = '"'
  let (word, c) ← quotedWord double (c.rest.length + 1) c.next
  let (rest, c) ← quotedRest double quote (c.rest.length + 1) c
  pure (String.ofList (word ++ rest), c)

/-! ## Plain scalars -/

/-- Line ends and the blanks between them after a line of a plain scalar; nothing if a document
starts or ends there. -/
def plainBreaks : Nat → Cursor → Option (List Char) × Cursor
  | 0, c => (some [], c)
  | fuel + 1, c =>
    if c.peek = ' ' then plainBreaks fuel c.next
    else if isBreak c.peek then
      let (first, c) := c.takeBreak
      if c.atMarker then (none, c)
      else
        let (others, c) := plainBreaks fuel c
        (others.map (first ++ ·), c)
    else (some [], c)

/-- What is between two words of a plain scalar, the place after it, and whether a line end is in
it.  It is empty where the scalar ends. -/
def plainSpaces (c : Cursor) : List Char × Cursor × Bool :=
  let blanks := c.span (· = ' ')
  let c := c.skip blanks.length
  if isBreak c.peek then
    let (first, c) := c.takeBreak
    if c.atMarker then ([], c, true)
    else
      let (others, c) := plainBreaks c.rest.length c
      ((others.map (fold first)).getD [], c, true)
  else (blanks, c, false)

def plainWordLength (inFlow : Bool) : List Char → Nat
  | [] => 0
  | ch :: rest =>
    let following := rest.headD '\x00'
    let isFlowMark (ch : Char) : Bool :=
      ch = ',' || ch = '[' || ch = ']' || ch = '\x7b' || ch = '\x7d'
    let ends := isGap ch ||
      (ch = ':' && (isGap following || (inFlow && isFlowMark following))) ||
      (inFlow && (isFlowMark ch || ch = '?'))
    if ends then 0 else plainWordLength inFlow rest + 1

structure Plain where
  text : List Char
  cursor : Cursor
  /-- Whether the last thing read was a line end. -/
  broken : Bool

/-- A plain scalar from a word on, which is written after `spaces`. -/
def plainFrom (inFlow : Bool) (indent : Int) : Nat → List Char → Plain → Plain
  | 0, _, p => p
  | fuel + 1, spaces, p =>
    let c := p.cursor
    if c.peek = '#' then p
    else
      let n := plainWordLength inFlow c.rest
      if n = 0 then p
      else
        let text := p.text ++ spaces ++ c.rest.take n
        let (spaces, c, broken) := plainSpaces (c.skip n)
        let p := ⟨text, c, broken⟩
        if spaces.isEmpty || c.peek = '#' || (!inFlow && (c.column : Int) < indent) then p
        else plainFrom inFlow indent fuel spaces p

def plain (inFlow : Bool) (indent : Int) (c : Cursor) : Plain :=
  plainFrom inFlow (indent + 1) (c.rest.length + 1) [] ⟨[], c, false⟩

/-! ## Literal and folded scalars -/

/-- What the line ends at the end of a scalar become. -/
inductive Chomping where
  | strip
  | clip
  | keep
deriving DecidableEq

def chomping? (ch : Char) : Option Chomping :=
  if ch = '+' then some .keep else if ch = '-' then some .strip else none

/-- The marks after the indicator: chomping and an indentation, in either order. -/
def marks (c : Cursor) : Except Fault (Chomping × Option Nat × Cursor) := do
  let digit (ch : Char) : Except Fault (Option Nat) :=
    if '0' ≤ ch && ch ≤ '9' then
      if ch = '0' then .error .malformed else .ok (some (ch.toNat - 48))
    else .ok none
  let (chomp, width, c) ← match chomping? c.peek with
    | some chomp => do
      match ← digit c.next.peek with
      | some n => pure (chomp, some n, c.skip 2)
      | none => pure (chomp, none, c.next)
    | none => do
      match ← digit c.peek with
      | some n =>
        match chomping? c.next.peek with
        | some chomp => pure (chomp, some n, c.skip 2)
        | none => pure (Chomping.clip, some n, c.next)
      | none => pure (Chomping.clip, none, c)
  if endsWord c.peek then pure (chomp, width, c) else throw .malformed

/-- Go past the end of a line that may hold a comment. -/
def restOfLine (c : Cursor) : Except Fault Cursor :=
  let c := c.skipSpaces
  let c := if c.peek = '#' then c.skipLine else c
  if endsLine c.peek then .ok c.takeBreak.2 else .error .malformed

/-- The empty lines at the head of a scalar, and the deepest column that blanks reach there. -/
def leadingBreaks : Nat → Nat → Cursor → List Char × Nat × Cursor
  | 0, deepest, c => ([], deepest, c)
  | fuel + 1, deepest, c =>
    if c.peek = ' ' then
      let c := c.next
      leadingBreaks fuel (max deepest c.column) c
    else if isBreak c.peek then
      let (first, c) := c.takeBreak
      let (others, deepest, c) := leadingBreaks fuel deepest c
      (first ++ others, deepest, c)
    else ([], deepest, c)

/-- Go past blanks up to an indentation. -/
def skipIndent (indent : Int) : Nat → Cursor → Cursor
  | 0, c => c
  | fuel + 1, c =>
    if (c.column : Int) < indent && c.peek = ' ' then skipIndent indent fuel c.next else c

/-- The empty lines before a line of an indentation. -/
def blockBreaks (indent : Int) : Nat → Cursor → List Char × Cursor
  | 0, c => ([], c)
  | fuel + 1, c =>
    let c := skipIndent indent c.rest.length c
    if isBreak c.peek then
      let (first, c) := c.takeBreak
      let (others, c) := blockBreaks indent fuel c
      (first ++ others, c)
    else ([], c)

/-- Whether the cursor is at a line of a scalar of an indentation. -/
def atLine (indent : Int) (c : Cursor) : Bool := (c.column : Int) = indent && !atEnd c.peek

def isBlank (ch : Char) : Bool := ch = ' ' || ch = '\t'

/-- The lines of a scalar: its text, the last line end, and the empty lines after it. -/
def blockLines (folded : Bool) (indent : Int) :
    Nat → List Char → Cursor → List Char × List Char × List Char × Cursor
  | 0, breaks, c => ([], [], breaks, c)
  | fuel + 1, breaks, c =>
    let startsBlank := isBlank c.peek
    let line := c.span fun ch => !isBreak ch
    let (lineEnd, c) := (c.skip line.length).takeBreak
    let (after, c) := blockBreaks indent (c.rest.length + 1) c
    if atLine indent c then
      let joint :=
        if folded && lineEnd = ['\n'] && !startsBlank && !isBlank c.peek then
          if after.isEmpty then [' '] else []
        else lineEnd
      let (rest, lastEnd, tail, c) := blockLines folded indent fuel after c
      (breaks ++ line ++ joint ++ rest, lastEnd, tail, c)
    else (breaks ++ line, lineEnd, after, c)

def block (indent : Int) (c : Cursor) : Except Fault (String × Cursor) := do
  let folded := c.peek = '>'
  let (chomp, width, c) ← marks c.next
  let c ← restOfLine c
  let least := max 1 (indent + 1)
  let (breaks, indent, c) := match width with
    | some n =>
      let indent := least + n - 1
      let (breaks, c) := blockBreaks indent (c.rest.length + 1) c
      (breaks, indent, c)
    | none =>
      let (breaks, deepest, c) := leadingBreaks (c.rest.length + 1) 0 c
      (breaks, max least deepest, c)
  let (text, lastEnd, tail, c) :=
    if atLine indent c then blockLines folded indent (c.rest.length + 1) breaks c
    else ([], [], breaks, c)
  let text := match chomp with
    | .strip => text
    | .clip => text ++ lastEnd
    | .keep => text ++ lastEnd ++ tail
  pure (String.ofList text, c)

end Scalar
end Yaml
end StreamTable
