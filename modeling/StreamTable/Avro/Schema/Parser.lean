/-
Reading schemas from nodes.  A node is a name, an object or a list; reading it checks what can be
checked on the way: names are defined before they are used and not twice, defaults fit their
types, decimal attributes make sense.

The reader recurses on the node.  The entries of an object are looked up by key, so each entry is
first turned into a `Child`, which says how to read the entry's value, and only the children that
are asked for are run.

`Schema.parse` reads a node the way a descriptor is read: the elements of a list at the top are
schemas of their own that share their named types.  `Schema.parseWhole` reads a list at the top as
one union, as a data file's header is read.

A node that is marked as checked before is not read at all then.  It is read where the schema is
used, in the scope `verbatim`: its names are what is written, and nothing is checked.
-/
import StreamTable.Avro.Schema
import StreamTable.Text.Search
import StreamTable.Value.Elements
import StreamTable.Value.Floating

namespace StreamTable
namespace Avro

/-- The names known so far, and among them those defined in the schema being read. -/
structure Names where
  known : List String
  own : List String

abbrev Reading := StateT Names (Except SchemaFault)

/-- Where a node stands. -/
inductive Scope where
  /-- In a namespace, which completes the names that are not full. -/
  | within (around : Value)
  /-- In a node that was checked before, with all names in full. -/
  | verbatim

namespace Scope

def top : Scope := .within (.str "")

/-- A check, which is left out in a node that was checked before. -/
def check (scope : Scope) (c : Except SchemaFault Unit) : Except SchemaFault Unit :=
  match scope with
  | .within _ => c
  | .verbatim => .ok ()

/-- The default that the type of a field is checked with. -/
def default? (scope : Scope) (field : List (Value × Value)) : Option Value :=
  match scope with
  | .within _ => Value.field? field "default"
  | .verbatim => none

end Scope

/-- How the value of an entry is read: as a schema, given the scope and the default of the field it
is the type of, or as the fields of a record. -/
structure Child where
  schema : Scope → Option Value → Reading Schema
  fields : Scope → Reading (List Field)

namespace Schema

def reservedKeys : List String :=
  ["type", "name", "namespace", "fields", "items", "size", "symbols", "values", "doc"]

/-- The key that marks a node as checked before, and the key of its named types. -/
def checkedKey : String := "__fastavro_parsed"

def namedKey : String := "__named_schemas"

/-- The attributes of a node; documentation comes last. -/
def attributesOf (es : List (Value × Value)) : Attributes :=
  (es.filter fun e => !reservedKeys.any (e.1.isText ·)) ++
    match Value.field? es "doc" with
    | some doc => [Value.entry "doc" doc]
    | none => []

def fieldAttributesOf (es : List (Value × Value)) : Attributes :=
  es.filter fun e => !(e.1.isText "type" || e.1.isText "name")

def required (es : List (Value × Value)) (key : String) : Except SchemaFault Value :=
  match Value.field? es key with
  | some v => .ok v
  | none => .error (.data (.missingKey (.str key)))

/-- The part of a name before its last dot. -/
def namespaceOf (name : String) : String :=
  String.ofList ((name.toList.reverse.dropWhile (· ≠ '.')).drop 1).reverse

/-- The namespace and the full name of a named type: a name with a dot is full, another one stands
in its own namespace or the one around it. -/
def nameWithin (es : List (Value × Value)) (around : Value) :
    Except SchemaFault (Value × String) :=
  match Value.field? es "name" with
  | none => .error .nameMissing
  | some name =>
    let ns := (Value.field? es "namespace").getD around
    let holdsDot (xs : List Value) : Except SchemaFault (Value × String) :=
      if xs.any (·.isText ".") then .error (.data .noSuchAttribute)
      else if ns.isTruthy then .ok (ns, ns.text ++ "." ++ name.text)
      else .error (.data .wrongType)
    match name with
    | .str s =>
      if s.toList.contains '.' then .ok (.str (namespaceOf s), s)
      else if ns.isTruthy then .ok (ns, ns.text ++ "." ++ s)
      else .ok (.str "", s)
    | .list xs => holdsDot xs
    | .tuple xs => holdsDot xs
    | .set xs => holdsDot xs
    | .map es => holdsDot (es.map (·.1))
    | _ => .error (.data .wrongType)

/-- The full name of a named type, and the scope of what stands in it. -/
def fullNameOf (es : List (Value × Value)) : Scope → Except SchemaFault (Scope × String)
  | .within around => do
    let (ns, name) ← nameWithin es around
    pure (.within ns, name)
  | .verbatim => do
    let name ← required es "name"
    pure (.verbatim, name.text)

def define (name : String) : Reading Unit := do
  let names ← get
  if names.own.contains name then throw (.redefined name)
  set (Names.mk (name :: names.known) (name :: names.own))

/-- A name is defined, which is known already in a node that was checked before. -/
def defineIn (scope : Scope) (name : String) : Reading Unit :=
  match scope with
  | .within _ => define name
  | .verbatim => pure ()

def isFloatable (v : Value) : Bool := v.toDouble.isOk

/-- Whether a default fits a primitive type that is given by its name. -/
def acceptsDefault (p : Primitive) (d : Value) : Bool :=
  match p, d with
  | .null, .null => true
  | .boolean, .bool _ => true
  | .string, .str _ => true
  | .bytes, .str _ => true
  | .int, d => d.asInt?.isSome
  | .long, d => d.asInt?.isSome
  | .float, d => isFloatable d
  | .double, d => isFloatable d
  | _, _ => false

/-- Whether a default fits a primitive type that is given as an object. -/
def acceptsAnnotatedDefault (p : Primitive) (d : Value) : Bool :=
  match p, d with
  | .float, .float _ => true
  | .float, _ => false
  | .double, .float _ => true
  | .double, _ => false
  | p, d => acceptsDefault p d

def checkDefault (default? : Option Value) (accepts : Value → Bool) : Except SchemaFault Unit :=
  match default? with
  | some d => if accepts d then .ok () else .error .badDefault
  | none => .ok ()

/-- Whether a default fits a branch of a union; only primitive types given by name are told
apart. -/
def branchAccepts (d : Value) : Schema → Bool
  | .primitive p => acceptsDefault p d
  | _ => true

def isList : Value → Bool
  | .list _ => true
  | _ => false

def isMap : Value → Bool
  | .map _ => true
  | _ => false

/-- The most decimal digits that fit into `size` bytes. -/
def maxPrecision (size : Value) : Except SchemaFault Int :=
  let logTwo : Double := ⟨0x3FD34413509F79FF⟩
  let digits (bits : Double) : Except SchemaFault Int :=
    let x := Double.ofFloat (logTwo.toFloat * bits.toFloat)
    if x.isNaN then .error (.data .wrongValue)
    else if x.isFinite then .ok (Int.fdiv x.fraction.1 x.fraction.2)
    else .error (.data .overflow)
  match size with
  | .float x => digits (.ofFloat (8 * x.toFloat - 1))
  | v =>
    match v.asInt? with
    | some n =>
      match Double.ofInt? (8 * n - 1) with
      | some bits => digits bits
      | none => .error (.data .overflow)
    | none => .error (.data .wrongType)

/-- The scale of a decimal type, if it is given and not zero or empty. -/
def checkedScale (attrs : Attributes) : Except SchemaFault (Option Int) :=
  match Value.field? attrs "scale" with
  | none => .ok none
  | some scale =>
    if !scale.isTruthy then .ok none
    else
      match scale.asInt? with
      | some n => if n < 0 then .error (.badScale scale) else .ok (some n)
      | none => .error (.badScale scale)

/-- The precision of a decimal type, if it is given and not zero or empty. -/
def checkedPrecision (attrs : Attributes) (fixedSize : Option (Except SchemaFault Value)) :
    Except SchemaFault (Option Int) :=
  match Value.field? attrs "precision" with
  | none => .ok none
  | some precision =>
    if !precision.isTruthy then .ok none
    else
      match precision.asInt? with
      | none => .error (.badPrecision precision)
      | some n => do
        if n ≤ 0 then throw (.badPrecision precision)
        match fixedSize with
        | none => pure ()
        | some size =>
          let size ← size
          if n > (← maxPrecision size) then throw (.precisionTooLarge precision size)
        .ok (some n)

def checkDecimal (attrs : Attributes) (fixedSize : Option (Except SchemaFault Value)) :
    Except SchemaFault Unit := do
  let scale ← checkedScale attrs
  let precision ← checkedPrecision attrs fixedSize
  match scale, precision with
  | some s, some p =>
    if p < s then
      throw (.scaleAbovePrecision ((Value.field? attrs "precision").getD (.int p)))
  | _, _ => pure ()

def isDecimal (attrs : Attributes) : Bool :=
  match Value.field? attrs "logicalType" with
  | some t => t.isText "decimal"
  | none => false

/-- One letter or underscore, then letters, digits and underscores, all of ASCII. -/
def isSymbolName (cs : List Char) : Bool :=
  match cs with
  | [] => false
  | c :: rest =>
    (c.isAlpha || c = '_') && rest.all fun c => c.isAlphanum || c = '_'

/-- The symbol at the place where a text occurs in symbols that are one text. -/
def symbolAt? (s t : List Char) : Option Value :=
  (Text.indexIn? s t).bind fun i => (t[i]?).map fun c => .str (String.singleton c)

/-- Whether a value is one of the symbols; in symbols that are one text, whether it is a part of
the text. -/
def isSymbol (symbols v : Value) : Except DataFault Bool :=
  match symbols with
  | .str t =>
    match v with
    | .str s => .ok (Text.occursIn s.toList t.toList)
    | _ => .error .wrongType
  | .map es => if v.isHashable then .ok (es.any (v.same ·.1)) else .error .wrongType
  | .set xs => if v.isHashable then .ok (xs.any (v.same ·)) else .error .wrongType
  | symbols =>
    match symbols.elements? with
    | some xs => .ok (xs.any (v.same ·))
    | none => .error .wrongType

def hasDuplicates : List Value → Bool
  | [] => false
  | x :: xs => xs.any (x.same ·) || hasDuplicates xs

def checkSymbols (es : List (Value × Value)) : Except SchemaFault Unit := do
  let symbols ← required es "symbols"
  match symbols.elements? with
  | none => throw (.data .wrongType)
  | some items =>
    let isName (v : Value) : Bool := match v with
      | .str s => isSymbolName s.toList
      | _ => false
    if !items.all isName then throw .badSymbol
    if hasDuplicates items then throw .repeatedSymbol
    match Value.field? es "default" with
    | none => pure ()
    | some d =>
      match isSymbol symbols d with
      | .ok true => pure ()
      | .ok false => throw .enumDefault
      | .error fault => throw (.data fault)

/-- A reference to a named type, seen from a namespace. -/
def referenceWithin (s : String) (around : Value) : Reading Schema := do
  let name ←
    if !s.toList.contains '.' && around.isTruthy then
      match around with
      | .str ns => pure (ns ++ "." ++ s)
      | _ => throw (.data .wrongType)
    else pure s
  if (← get).known.contains name then pure (.named name) else throw (.unknownName name)

def readReference (s : String) : Scope → Reading Schema
  | .within around => referenceWithin s around
  | .verbatim => pure (.named s)

/-- A record without fields, unless it was checked before, and so has some. -/
def noFields : Scope → Reading (List Field)
  | .within _ => pure []
  | .verbatim => throw (.data (.missingKey (.str "fields")))

def child (children : List (Value × Child)) (key : String) : Except SchemaFault Child :=
  match children.find? fun e => e.1.isText key with
  | some e => .ok e.2
  | none => .error (.data (.missingKey (.str key)))

/-- The first of the items that stand where fields should, none of which is an object. -/
def refuseFields : List Value → Reading (List Field)
  | [] => pure []
  | v :: _ => throw (.fieldNotMap v)

mutual

/-- Read a schema from a node, given its scope and the default of its field. -/
def parseNode : Value → Scope → Option Value → Reading Schema
  | .list xs, scope, default? => do
    let branches ← parseBranches xs scope
    match default? with
    | some d =>
      if branches.any (branchAccepts d) then pure (.union branches)
      else throw .badUnionDefault
    | none => pure (.union branches)
  | .str s, scope, default? =>
    match Primitive.ofName? s with
    | some p => do
      checkDefault default? (acceptsDefault p)
      pure (.primitive p)
    | none => readReference s scope
  | .map es, scope, default? => do
    let type ← required es "type"
    let attrs := attributesOf es
    if isDecimal attrs then
      scope.check (checkDecimal attrs
        (if type.isText "fixed" then some (required es "size") else none))
    let children := parseChildren es
    match type with
    | .str "array" =>
      let items ← (← child children "items").schema scope none
      checkDefault default? isList
      pure (.array items attrs)
    | .str "map" =>
      let values ← (← child children "values").schema scope none
      checkDefault default? isMap
      pure (.map values attrs)
    | .str "enum" =>
      let (_, name) ← fullNameOf es scope
      defineIn scope name
      scope.check (checkSymbols es)
      checkDefault default? Value.isStr
      pure (.enum name (← required es "symbols") attrs)
    | .str "fixed" =>
      let (_, name) ← fullNameOf es scope
      defineIn scope name
      let size ← required es "size"
      checkDefault default? Value.isStr
      pure (.fixed name size attrs)
    | .str t =>
      if t = "record" || t = "error" then do
        let (inner, name) ← fullNameOf es scope
        defineIn scope name
        let fields ← match children.find? fun e => e.1.isText "fields" with
          | some e => e.2.fields inner
          | none => noFields scope
        checkDefault default? isMap
        pure (.record (t = "error") name fields attrs)
      else
        match Primitive.ofName? t with
        | some p => do
          checkDefault default? (acceptsAnnotatedDefault p)
          pure (.annotated p attrs)
        | none => throw .unknownKind
    | type => throw (if type.isHashable then .unknownKind else .data .wrongType)
  | _, _, _ => throw (.data .wrongType)

def parseBranches : List Value → Scope → Reading (List Schema)
  | [], _ => pure []
  | x :: xs, scope => do
    let s ← parseNode x scope none
    let rest ← parseBranches xs scope
    pure (s :: rest)

def parseFields : Value → Scope → Reading (List Field)
  | .list xs, scope => parseFieldList xs scope
  | .map es, _ => refuseFields (es.map (·.1))
  | .str s, _ => refuseFields (s.toList.map fun c => .str (String.singleton c))
  | .tuple xs, scope => parseFieldList xs scope
  | .set xs, _ => refuseFields xs
  | .bytes b, _ => refuseFields (b.map fun n => .int n.toNat)
  | .bytearray b, _ => refuseFields (b.map fun n => .int n.toNat)
  | _, _ => throw (.data .wrongType)

def parseFieldList : List Value → Scope → Reading (List Field)
  | [], _ => pure []
  | x :: xs, scope => do
    let f ← parseField x scope
    let rest ← parseFieldList xs scope
    pure (f :: rest)

def parseField : Value → Scope → Reading Field
  | .map es, scope => do
    match Value.field? es "name" with
    | none => throw .fieldUnnamed
    | some name =>
      match (parseChildren es).find? fun e => e.1.isText "type" with
      | none => throw (.fieldTypeMissing name)
      | some type =>
        match Value.field? es "aliases" with
        | some aliases =>
          scope.check (if !isList aliases then throw (.aliasesNotList aliases) else pure ())
        | none => pure ()
        let schema ← type.2.schema scope (scope.default? es)
        pure (⟨name, fieldAttributesOf es⟩, schema)
  | v, _ => throw (.fieldNotMap v)

/-- How each entry of an object is read. -/
def parseChildren : List (Value × Value) → List (Value × Child)
  | [] => []
  | (k, v) :: es =>
    (k, ⟨fun scope default? => parseNode v scope default?, fun scope => parseFields v scope⟩) ::
      parseChildren es

end

def parseOne (node : Value) : Reading Schema := do
  modify fun names => { names with own := [] }
  parseNode node .top none

mutual

/-- Read a node at the top.  The elements of a list there are schemas of their own.  A node that
is marked as checked is taken as it is, and the names it brings become known. -/
def parseTop : Value → Reading Schema
  | .list xs => do
    let branches ← parseTops xs
    pure (.union branches)
  | .map es =>
    if (Value.field? es checkedKey).isSome then
      match Value.field? es namedKey with
      | none => parseOne (.map es)
      | some (.map table) => do
        modify fun names => { names with known := table.map (·.1.text) ++ names.known }
        pure (.unchecked (.map es))
      | some _ => throw (.data .noSuchAttribute)
    else parseOne (.map es)
  | node => parseOne node

def parseTops : List Value → Reading (List Schema)
  | [] => pure []
  | x :: xs => do
    let s ← parseTop x
    let rest ← parseTops xs
    pure (s :: rest)

end

def parse (node : Value) : Except SchemaFault Schema := (parseTop node).run' ⟨[], []⟩

/-- Read a schema as one whole, a list at the top as one union. -/
def parseWhole (node : Value) : Except SchemaFault Schema := (parseOne node).run' ⟨[], []⟩

/-- The node of a schema that was taken unchecked, without its marks. -/
def unmarked : Value → Value
  | .map es => .map (es.filter fun e => !(e.1.isText checkedKey || e.1.isText namedKey))
  | node => node

mutual

/-- Read a schema that was read before once more.  Records at the top are known to be right and
stay, and a node that was taken unchecked is what it says; anything else is read again, where its
names stand without the namespaces they came from. -/
def reread : Schema → Reading Schema
  | .record isError name fields attrs => do
    let s := Schema.record isError name fields attrs
    modify fun names => { names with known := s.definitions.map (·.1) ++ names.known }
    pure s
  | .union branches => do
    let branches ← rereadAll branches
    pure (.union branches)
  | .unchecked node => parseNode (unmarked node) .verbatim none
  | s => parseOne s.toValue

def rereadAll : List Schema → Reading (List Schema)
  | [] => pure []
  | s :: rest => do
    let s ← reread s
    let rest ← rereadAll rest
    pure (s :: rest)

end

/-- The schema that stands for a schema read before, when rows are checked or stored with it. -/
def settle (s : Schema) : Except SchemaFault Schema := (reread s).run' ⟨[], []⟩

end Schema
end Avro
end StreamTable
