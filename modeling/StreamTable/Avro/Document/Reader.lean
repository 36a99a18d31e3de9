/-
Reading a row from a JSON document.  The reader follows the schema and asks for one token after
another; a stack of symbols says whether the grammar allows it and keeps the position in the
document: the current node, and the key under which the next value stands if that node is an
object.  Values are taken as they come; whether they fit is checked on the whole row afterwards.

A row that was begun leaves its traces in the store even if reading it fails, so the state is kept
on every path.
-/
import StreamTable.Avro.Document.Grammar
import StreamTable.Text.Utf8

namespace StreamTable
namespace Avro
namespace Document

structure Position where
  store : Store
  stack : List Symbol
  frames : List (Cell × Option Value)
  current : Cell
  key : Option Value

abbrev Reader := ExceptT DataFault (StateM Position)

namespace Reader

def currentNode : Reader Node := do
  let p ← get
  pure (p.store.node p.current)

def writeNode (c : Cell) (n : Node) : Reader Unit :=
  modify fun p => { p with store := p.store.write c n }

def cellUnder? (entries : List (String × Cell)) (key : Value) : Option Cell :=
  match key with
  | .str k => (entries.find? (·.1 == k)).map (·.2)
  | _ => none

def orMissing (d : Option Cell) : Reader Cell :=
  match d with
  | some c => pure c
  | none => throw .wrongValue

def valueCell (d : Option Cell) : Reader Cell := do
  let p ← get
  match p.store.node p.current with
  | .map entries =>
    match p.key.bind (cellUnder? entries) with
    | some c => pure c
    | none => orMissing d
  | _ => pure p.current

def value (d : Option Cell) : Reader Value := do
  let c ← valueCell d
  pure ((← get).store.value maxDepth c)

def push : Reader Unit := modify fun p => { p with frames := (p.current, p.key) :: p.frames }

def pop : Reader Unit := do
  match (← get).frames with
  | (c, k) :: rest => modify fun p => { p with frames := rest, current := c, key := k }
  | [] => throw .badIndex

/-- Go into the value under the key, if the current node is an object and a key is set. -/
def goIn (d : Option Cell) : Reader Unit := do
  push
  let p ← get
  match p.store.node p.current, p.key with
  | .map entries, some k =>
    match cellUnder? entries k with
    | some c => modify fun p => { p with current := c }
    | none =>
      let c ← orMissing d
      modify fun p => { p with current := c }
  | _, _ => pure ()

def clearKey : Reader Unit := modify fun p => { p with key := none }

def pushSymbol (s : Symbol) : Reader Unit := modify fun p => { p with stack := s :: p.stack }

def popSymbol : Reader Symbol := do
  match (← get).stack with
  | s :: rest =>
    modify fun p => { p with stack := rest }
    pure s
  | [] => throw .badIndex

def pushSymbols (ss : List Symbol) : Reader Unit :=
  modify fun p => { p with stack := ss ++ p.stack }

/-- How many symbols may be opened in search of a token. -/
def maxSteps : Nat := 100000

/-- Ask for a token; the answer is the default of what was met. -/
def advance (t : Token) : Nat → Reader (Option Cell)
  | 0 => throw .tooDeep
  | fuel + 1 => do
    let top ← popSymbol
    match top with
    | .token t' d => if t' = t then pure d else throw .grammar
    | .recordStart d => goIn d; advance t fuel
    | .recordEnd => pop; advance t fuel
    | .fieldStart name => modify (fun p => { p with key := some name }); advance t fuel
    | .fieldEnd => advance t fuel
    | .unionEnd => advance t fuel
    | .symbols _ => throw .grammar
    | .choice .. => throw .grammar
    | .sequence parts => pushSymbols parts; advance t fuel
    | .repeated stop parts =>
      if stop = t then pure none
      else
        pushSymbols (parts ++ [.repeated stop parts])
        advance t fuel
    | .root start => pushSymbols [start, .root start]; advance t fuel

def ask (t : Token) : Reader (Option Cell) := advance t maxSteps

def askPrimitive (p : Primitive) : Reader (Option Cell) := ask (.primitive p)

/-- Finish the row: nothing but ends may be left. -/
def drain : Nat → Reader Unit
  | 0 => throw .tooDeep
  | fuel + 1 => do
    let top ← popSymbol
    match top with
    | .root start => pushSymbol (.root start)
    | .recordStart d => goIn d; drain fuel
    | .recordEnd => pop; drain fuel
    | .fieldStart name => modify (fun p => { p with key := some name }); drain fuel
    | .fieldEnd => drain fuel
    | .unionEnd => drain fuel
    | .sequence parts => pushSymbols parts; drain fuel
    | .repeated stop parts =>
      pushSymbols (parts ++ [.repeated stop parts])
      drain fuel
    | _ => throw .grammar

/-- The bytes of a text of characters below 256. -/
def bytesOf : Value → Reader Value
  | .str s =>
    match Text.toSingleBytes? s with
    | some b => pure (.bytes b)
    | none => throw .wrongValue
  | _ => throw .noSuchAttribute

/-- A text, or the key of the entry of a map that is met next. -/
def text : Reader Value := do
  let d ← askPrimitive .string
  match (← get).stack with
  | .token .mapKey _ :: _ =>
    let _ ← ask .mapKey
    let p ← get
    let key : Option Value := match p.store.node p.current with
      | .map ((k, _) :: _) => some (.str k)
      | .list (c :: _) => some (p.store.value maxDepth c)
      | .leaf (.str s) => s.toList.head?.map fun c => .str (String.singleton c)
      | _ => p.key
    modify fun p => { p with key := key }
    pure (key.getD .null)
  | _ => value d

/-- The last entry of an object, which is taken out. -/
def takeLast (c : Cell) : Reader (String × Cell) := do
  match (← get).store.node c with
  | .map entries =>
    match entries.reverse with
    | last :: before =>
      writeNode c (.map before.reverse)
      pure last
    | [] => throw (.missingKey .null)
  | _ => throw .noSuchAttribute

def isNullCell (c : Cell) : Reader Bool := do
  match (← get).store.node c with
  | .leaf .null => pure true
  | _ => pure false

/-- The value under a key of the current object, entered with the first label if it is missing. -/
def unionCell (labels : List (Option String)) (d : Option Cell)
    (entries : List (String × Cell)) (key : Value) : Reader Cell := do
  match cellUnder? entries key with
  | some c => pure c
  | none =>
    let first ← match labels with
      | some l :: _ => pure l
      | none :: _ => throw .wrongType
      | [] => throw .badIndex
    let d ← orMissing d
    let p ← get
    let (c, store) := p.store.add (.map [(first, d)])
    let k := key.asStr?.getD ""
    set { p with store := store.write p.current (.map (entries ++ [(k, c)])) }
    pure c

def setUnder (key : Value) (c : Cell) : Reader Unit := do
  let p ← get
  match p.store.node p.current with
  | .map entries =>
    writeNode p.current (.map (entries.map fun e => if key.isText e.1 then (e.1, c) else e))
  | _ => pure ()

/-- The branch of a union that the document chooses. -/
def branch : Reader Nat := do
  let _ ← ask .union
  match ← popSymbol with
  | .choice labels branches d =>
    let p ← get
    let label ← match p.store.node p.current, p.key with
      | .map entries, some key => do
        let c ← unionCell labels d entries key
        if ← isNullCell c then pure "null"
        else
          let (label, data) ← takeLast c
          setUnder key data
          pushSymbol .unionEnd
          pure label
      | _, _ => do
        if ← isNullCell p.current then pure "null"
        else
          let (label, data) ← takeLast p.current
          modify fun p => { p with current := data }
          pushSymbol .unionEnd
          pure label
    match labels.findIdx? (· == some label) with
    | none => throw .wrongValue
    | some i =>
      match branches[i]? with
      | some s => pushSymbol s
      | none => throw .badIndex
      pure i
  | _ => throw .noSuchAttribute

/-- How many items the current node has. -/
def size : Reader Nat := do
  match ← currentNode with
  | .list cells => pure cells.length
  | .map entries => pure entries.length
  | .leaf (.str s) => pure s.length
  | .leaf _ => throw .wrongType

def takeFirst : Reader Cell := do
  match ← currentNode with
  | .list (c :: rest) =>
    writeNode (← get).current (.list rest)
    pure c
  | .list [] => throw .badIndex
  | .map _ => throw (.missingKey (.int 0))
  | .leaf _ => throw .noSuchAttribute

/-- The items of the current array, each read by `item`. -/
def items (item : Reader Value) : Nat → Reader (List Value)
  | 0 => pure []
  | fuel + 1 => do
    if (← size) = 0 then pure []
    else
      push
      let c ← takeFirst
      modify fun p => { p with current := c }
      let v ← item
      pop
      let _ ← ask .itemEnd
      let rest ← items item fuel
      pure (v :: rest)

def firstKey : Reader Value := do
  let p ← get
  match p.store.node p.current with
  | .map ((k, _) :: _) => pure (.str k)
  | .list (c :: _) => pure (p.store.value maxDepth c)
  | .leaf (.str s) => pure ((s.toList.head?.map fun c => .str (String.singleton c)).getD .null)
  | _ => pure .null

/-- Take the entry under a key out of the current node. -/
def remove (key : Value) : Reader Unit := do
  let p ← get
  match p.store.node p.current with
  | .map entries =>
    if entries.any (key.isText ·.1) then
      writeNode p.current (.map (entries.filter fun e => !key.isText e.1))
    else throw (.missingKey key)
  | .list cells =>
    match key.asInt? with
    | some n =>
      let i := if n < 0 then n + cells.length else n
      if 0 ≤ i && i < cells.length then writeNode p.current (.list (cells.eraseIdx i.toNat))
      else throw .badIndex
    | none => throw .wrongType
  | .leaf _ => throw .wrongType

/-- The entries of the current object, each value read by `item`. -/
def entries (item : Reader Value) : Nat → List (Value × Value) → Reader (List (Value × Value))
  | 0, acc => pure acc
  | fuel + 1, acc => do
    if (← size) = 0 then pure acc
    else
      push
      let first ← firstKey
      let key ← text
      let v ← item
      if !key.isHashable then throw .wrongType
      pop
      remove first
      entries item fuel (Value.put acc key v)

/-- The symbol of an enum at the place that its label has. -/
def symbolOf (symbols label : Value) : Reader Value := do
  match symbols with
  | .str t =>
    match label with
    | .str s =>
      match Schema.symbolAt? s.toList t.toList with
      | some v => pure v
      | none => throw .wrongValue
    | _ => throw .wrongType
  | .map _ => throw .noSuchAttribute
  | .set _ => throw .noSuchAttribute
  | symbols =>
    match symbols.elements?.bind (·.find? (label.same ·)) with
    | some v => pure v
    | none => throw .wrongValue

def convert (r : Except DataFault Value) : Reader Value :=
  match r with
  | .ok v => pure v
  | .error fault => throw fault

def primitive (p : Primitive) : Reader Value := do
  match p with
  | .string => text
  | .bytes => do
    let d ← askPrimitive .bytes
    bytesOf (← value d)
  | p => do
    let d ← askPrimitive p
    value d

mutual

/-- Read a value of a schema, named types being read by `resolve`. -/
def readWith (resolve : String → Reader Value) : Schema → Reader Value
  | .primitive p => primitive p
  | .named n => resolve n
  | .annotated p attrs => do
    let v ← primitive p
    match Logical.of? p attrs with
    | some l => convert (l.convert attrs v)
    | none => pure v
  | .array inner _ => do
    let d ← ask .arrayStart
    goIn d
    clearKey
    let n ← size
    let xs ← items (readWith resolve inner) n
    let _ ← ask .arrayEnd
    pop
    pure (.list xs)
  | .map inner _ => do
    let d ← ask .mapStart
    goIn d
    clearKey
    let n ← size
    let es ← entries (readWith resolve inner) n []
    let _ ← ask .mapEnd
    pop
    pure (.map es)
  | .enum _ symbols _ => do
    let d ← ask .enum
    let _ ← popSymbol
    symbolOf symbols (← value d)
  | .fixed _ _ attrs => do
    let d ← ask .fixed
    let v ← bytesOf (← value d)
    if Logical.isFixedDecimal attrs then convert (Logical.decimal.convert attrs v) else pure v
  | .record _ _ fields _ => do
    let row ← readFields resolve fields []
    pure (.map row)
  | .union branches => do
    let i ← branch
    readBranch resolve branches i
  | .unchecked _ => throw .grammar

def readFields (resolve : String → Reader Value) :
    List (FieldHead × Schema) → List (Value × Value) → Reader (List (Value × Value))
  | [], row => pure row
  | (f, s) :: rest, row => do
    let v ← readWith resolve s
    if !f.name.isHashable then throw .wrongType
    readFields resolve rest (Value.put row f.name v)

def readBranch (resolve : String → Reader Value) : List Schema → Nat → Reader Value
  | [], _ => throw .badIndex
  | s :: _, 0 => readWith resolve s
  | _ :: rest, i + 1 => readBranch resolve rest i

end

/-- Read a value of a schema, given how many names may be looked up inside one another. -/
def read (defs : Definitions) : Nat → Schema → Reader Value
  | 0 => fun _ => throw .tooDeep
  | fuel + 1 => readWith fun name =>
    match defs.find? name with
    | some s => read defs fuel s
    | none => throw (.missingKey (.str name))

end Reader

/-- Read a row of a settled schema from a document.  The second part of the answer is the schema's
defaults as reading left them. -/
def readRow (s : Schema) (document : Value) : Except DataFault Value × List Value :=
  let (_, store) := Store.empty.add (.leaf .null)
  let (placed, store) := s.placeDefaults store
  let (start, store) := store.enter document
  match Grammar.of placed with
  | .error fault => (.error fault, placed.defaultsIn store)
  | .ok symbol =>
    let p : Position :=
      { store := store, stack := [symbol, .root symbol], frames := [], current := start,
        key := none }
    let action : Reader Value := do
      let v ← Reader.read (.of placed) maxNesting placed
      Reader.drain Reader.maxSteps
      pure v
    let (result, p) := action.run.run p
    (result, placed.defaultsIn p.store)

end Document
end Avro
end StreamTable
