/-
The nodes of a document: scalars, sequences and mappings, each with its tag.  `Node.ofTokens` reads
the one document of a text, and puts for each alias the node that it names.
-/
import StreamTable.Yaml.Content

namespace StreamTable
namespace Yaml

inductive Node where
  | scalar (tag : Tag) (text : String)
  | sequence (tag : Tag) (items : List Node)
  | mapping (tag : Tag) (entries : List (Node × Node))

/-- What is left of the tokens, and what has been declared so far. -/
structure Reading where
  tokens : List Token
  /-- The nodes with a name; one that is still being read has none yet. -/
  anchors : List (String × Option Node)
  /-- What the handles of tags stand for. -/
  handles : List (String × String)

/-- A step of reading. -/
abbrev Parse := StateT Reading (Except Fault)

namespace Parse

def malformed {α : Type} : Parse α := throw Fault.malformed

/-- The next token; after the last the text is at its end. -/
def peek : Parse Token := do return (← get).tokens.headD .streamEnd

def next : Parse Unit := modify fun r => { r with tokens := r.tokens.tail }

def isAt (tokens : List Token) : Parse Bool := do return tokens.contains (← peek)

def skip (t : Token) : Parse Bool := do
  if (← peek) = t then
    next
    return true
  else return false

def expect (t : Token) : Parse Unit := do
  if !(← skip t) then malformed

/-! ## Properties of nodes -/

def usualHandles : List (String × String) := [("!", "!"), ("!!", Tag.home)]

def anchor? : Parse (Option String) := do
  match ← peek with
  | .anchor name =>
    next
    return some name
  | _ => return none

/-- The full name of the tag, if there is one here. -/
def tag? : Parse (Option String) := do
  match ← peek with
  | .tag none name =>
    next
    return some name
  | .tag (some handle) suffix =>
    next
    match (← get).handles.find? (·.1 == handle) with
    | some (_, stem) => return some (stem ++ suffix)
    | none => malformed
  | _ => return none

/-- An anchor and a tag, in either order. -/
def properties : Parse (Option String × Option String) := do
  match ← anchor? with
  | some name => return (some name, ← tag?)
  | none =>
    let tag ← tag?
    if tag.isSome then return (← anchor?, tag) else return (none, none)

def isOpen (tag : Option String) : Bool := tag.isNone || tag == some "!"

def tagOr (otherwise : Tag) (tag : Option String) : Tag :=
  if isOpen tag then otherwise else (tag.map Tag.ofName).getD otherwise

def tagOfScalar (tag : Option String) (text : String) (plain : Bool) : Tag :=
  if tag.isNone && !plain then .text else tagOr (Content.tagOf text) tag

def referred (name : String) : Parse Node := do
  match (← get).anchors.find? (·.1 == name) with
  | some (_, some node) => return node
  | some (_, none) => throw (Fault.data .tooDeep)
  | none => malformed

def declare (name : String) : Parse Unit := do
  if (← get).anchors.any (·.1 == name) then malformed
  else modify fun r => { r with anchors := (name, none) :: r.anchors }

def define (name : String) (node : Node) : Parse Unit :=
  modify fun r => { r with
    anchors := r.anchors.map fun e => if e.1 == name then (name, some node) else e }

/-! ## Nodes -/

def nothing : Node := .scalar .null ""

/-- Where in the document a node stands: inside a flow collection, in a block, or in a block in
which the items of a sequence need no indentation. -/
inductive Place where
  | flow
  | block
  | entry
deriving DecidableEq

mutual

def node (place : Place) : Nat → Parse Node
  | 0 => malformed
  | fuel + 1 => do
    match ← peek with
    | .reference name =>
      next
      referred name
    | _ =>
      let (anchor, tag) ← properties
      anchor.forM declare
      let node ← content place (anchor.isSome || tag.isSome) tag fuel
      anchor.forM fun name => define name node
      return node

/-- A node after its properties; with some, nothing more need be written. -/
def content (place : Place) (hasProperties : Bool) (tag : Option String) : Nat → Parse Node
  | 0 => malformed
  | fuel + 1 => do
    match ← peek with
    | .scalar text plain =>
      next
      return .scalar (tagOfScalar tag text plain) text
    | .flowSequenceStart =>
      next
      return .sequence (tagOr .sequence tag) (← flowItems true fuel)
    | .flowMappingStart =>
      next
      return .mapping (tagOr .mapping tag) (← flowEntries true fuel)
    | .blockSequenceStart =>
      if place = .flow then empty else
        next
        return .sequence (tagOr .sequence tag) (← blockItems fuel)
    | .blockMappingStart =>
      if place = .flow then empty else
        next
        return .mapping (tagOr .mapping tag) (← blockEntries fuel)
    | .blockEntry =>
      if place ≠ .entry then empty else
        return .sequence (tagOr .sequence tag) (← indentlessItems fuel)
    | _ => empty
where
  empty : Parse Node :=
    if hasProperties then return .scalar (tagOfScalar tag "" true) "" else malformed

def nodeUnless (stops : List Token) (place : Place) : Nat → Parse Node
  | 0 => malformed
  | fuel + 1 => do if ← isAt stops then return nothing else node place fuel

def blockItems : Nat → Parse (List Node)
  | 0 => malformed
  | fuel + 1 => do
    if ← skip .blockEntry then
      let item ← nodeUnless [.blockEntry, .blockEnd] .block fuel
      return item :: (← blockItems fuel)
    else
      expect .blockEnd
      return []

def indentlessItems : Nat → Parse (List Node)
  | 0 => malformed
  | fuel + 1 => do
    if ← skip .blockEntry then
      let item ← nodeUnless [.blockEntry, .key, .value, .blockEnd] .block fuel
      return item :: (← indentlessItems fuel)
    else return []

def blockEntries : Nat → Parse (List (Node × Node))
  | 0 => malformed
  | fuel + 1 => do
    let stops := [Token.key, .value, .blockEnd]
    if ← skip .key then
      let key ← nodeUnless stops .entry fuel
      let value ← if ← skip .value then nodeUnless stops .entry fuel else pure nothing
      return (key, value) :: (← blockEntries fuel)
    else
      expect .blockEnd
      return []

/-- The items of a flow sequence; an entry among them is a mapping of its own. -/
def flowItems (isFirst : Bool) : Nat → Parse (List Node)
  | 0 => malformed
  | fuel + 1 => do
    if ← skip .flowSequenceEnd then return []
    else
      if !isFirst then expect .flowEntry
      if ← skip .key then
        let key ← nodeUnless [.value, .flowEntry, .flowSequenceEnd] .flow fuel
        let value ← flowValue .flowSequenceEnd fuel
        return .mapping .mapping [(key, value)] :: (← flowItems false fuel)
      else if ← skip .flowSequenceEnd then return []
      else
        let item ← node .flow fuel
        return item :: (← flowItems false fuel)

/-- The value of an entry of a flow collection, which may be left out. -/
def flowValue (stop : Token) : Nat → Parse Node
  | 0 => malformed
  | fuel + 1 => do
    if ← skip .value then nodeUnless [.flowEntry, stop] .flow fuel else return nothing

def flowEntries (isFirst : Bool) : Nat → Parse (List (Node × Node))
  | 0 => malformed
  | fuel + 1 => do
    if ← skip .flowMappingEnd then return []
    else
      if !isFirst then expect .flowEntry
      if ← skip .key then
        let key ← nodeUnless [.value, .flowEntry, .flowMappingEnd] .flow fuel
        let value ← flowValue .flowMappingEnd fuel
        return (key, value) :: (← flowEntries false fuel)
      else if ← skip .flowMappingEnd then return []
      else
        let key ← node .flow fuel
        return (key, nothing) :: (← flowEntries false fuel)

end

/-! ## Documents -/

/-- The directives in front of a document: one version at most, and each handle once. -/
def directives (versioned : Bool) : Nat → Parse Unit
  | 0 => malformed
  | fuel + 1 => do
    match ← peek with
    | .directive d =>
      next
      match d with
      | .version major =>
        if versioned || major ≠ 1 then malformed
        directives true fuel
      | .tag handle stem =>
        if (← get).handles.any (·.1 == handle) then malformed
        modify fun r => { r with handles := (handle, stem) :: r.handles }
        directives versioned fuel
      | .other => directives versioned fuel
    | _ => return

/-- Add the handles that need no declaration, for what was not declared. -/
def addUsualHandles : Parse Unit :=
  modify fun r => { r with handles := r.handles ++ usualHandles }

def skipDocumentEnds : Nat → Parse Unit
  | 0 => return
  | fuel + 1 => do if ← skip .documentEnd then skipDocumentEnds fuel

def document? (fuel : Nat) : Parse (Option Node) := do
  match ← peek with
  | .streamEnd => return none
  | .directive _ | .documentStart =>
    directives false fuel
    addUsualHandles
    expect .documentStart
    match ← peek with
    | .directive _ | .documentStart | .documentEnd | .streamEnd => return some nothing
    | _ => return some (← node .block fuel)
  | _ =>
    addUsualHandles
    return some (← node .block fuel)

/-- The one document of a text, if it is not empty. -/
def whole : Parse (Option Node) := do
  let fuel := 4 * (← get).tokens.length + 4
  let document ← document? fuel
  skipDocumentEnds fuel
  expect .streamEnd
  return document

end Parse

def Node.ofTokens (tokens : List Token) : Except Fault (Option Node) :=
  (Parse.whole.run ⟨tokens, [], []⟩).map (·.1)

end Yaml
end StreamTable
