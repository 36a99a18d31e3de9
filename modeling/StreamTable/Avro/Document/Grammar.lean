/-
The grammar of the JSON documents that a schema describes.  A schema expands into a symbol; named
types are expanded where they are used, so a schema that contains itself in an array or a map has
no finite grammar.  A record that is expanded a second time takes every field whose type mentions
the record for a union of null alone.
-/
import StreamTable.Avro.Document.Store
import StreamTable.Avro.Validation

namespace StreamTable
namespace Avro
namespace Document

/-- What can be asked for in a document. -/
inductive Token where
  | primitive (p : Primitive)
  | fixed
  | enum
  | union
  | arrayStart
  | arrayEnd
  | itemEnd
  | mapStart
  | mapEnd
  | mapKey
deriving DecidableEq

/-- A symbol of the grammar.  Parts stand in the order in which they are met. -/
inductive Symbol where
  | token (t : Token) (default? : Option Cell)
  | sequence (parts : List Symbol)
  /-- Parts that are met again and again until a token is asked for. -/
  | repeated (stop : Token) (parts : List Symbol)
  /-- The branches of a union with their labels; a branch that is itself a union has none. -/
  | choice (labels : List (Option String)) (branches : List Symbol) (default? : Option Cell)
  | symbols (labels : Value)
  | recordStart (default? : Option Cell)
  | recordEnd
  | fieldStart (name : Value)
  | fieldEnd
  | unionEnd
  /-- The bottom of the stack: the whole grammar once more. -/
  | root (start : Symbol)
deriving Inhabited

/-- Expanding keeps the names of the records that were expanded before. -/
abbrev Expansion := StateT (List String) (Except DataFault)

namespace Grammar

def label : Schema → Option String
  | .primitive p => some p.name
  | .named n => some n
  | .annotated p _ => some p.name
  | .array .. => some "array"
  | .map .. => some "map"
  | .enum n .. => some n
  | .fixed n .. => some n
  | .record _ n .. => some n
  | .union _ => none
  | .unchecked _ => none

def holdsKey (attrs : Attributes) (keys : List String) (name : String) : Bool :=
  keys.contains name || attrs.any (·.1.isText name)

/-- Whether a type mentions a name: as a part of its own name, as a branch of a union, or as a
key of its object. -/
def mentions (name : String) : Schema → Bool
  | .primitive p => Text.occursIn name.toList p.name.toList
  | .named n => Text.occursIn name.toList n.toList
  | .union branches => branches.any fun
    | .primitive p => p.name == name
    | .named n => n == name
    | _ => false
  | .annotated _ attrs => holdsKey attrs ["type"] name
  | .array _ attrs => holdsKey attrs ["type", "items"] name
  | .map _ attrs => holdsKey attrs ["type", "values"] name
  | .enum _ _ attrs => holdsKey attrs ["type", "name", "symbols"] name
  | .fixed _ _ attrs => holdsKey attrs ["type", "name", "size"] name
  | .record _ _ _ attrs => holdsKey attrs ["type", "name", "fields"] name
  | .unchecked _ => false

/-- The cell of a field's default in a schema whose defaults are placed. -/
def defaultCell? (f : FieldHead) : Option Cell :=
  f.default?.bind fun d => d.asInt?.map Int.toNat

def nullCell : Cell := 0

/-- The symbol of a primitive type.  Null has no default: it must be written out. -/
def primitive (p : Primitive) (d : Option Cell) : Symbol :=
  .token (.primitive p) (if p = .null then none else d)

def nullOnly : Symbol :=
  .sequence [.token .union none,
    .choice [some "null"] [.token (.primitive .null) none] (some nullCell)]

mutual

/-- Expand a schema whose defaults are placed; named types are expanded by `resolve`. -/
def expandWith (resolve : String → Expansion Symbol) :
    Schema → Option Cell → Expansion Symbol
  | .primitive p, d => pure (primitive p d)
  | .named n, _ => resolve n
  | .annotated p _, d => pure (primitive p d)
  | .array items _, d => do
    let item ← expandWith resolve items none
    pure (.sequence [.token .arrayStart d, .repeated .arrayEnd [item, .token .itemEnd none]])
  | .map values _, d => do
    let value ← expandWith resolve values none
    pure (.sequence [.token .mapStart d,
      .repeated .mapEnd [.token (.primitive .string) none, .token .mapKey none, value]])
  | .enum _ symbols _, d => pure (.sequence [.token .enum d, .symbols symbols])
  | .fixed .., d => pure (.token .fixed d)
  | .record false name fields _, d => do
    let again := (← get).contains name
    modify (name :: ·)
    let parts ← expandFields resolve name again fields
    pure (.sequence (.recordStart d :: parts ++ [.recordEnd]))
  | .record true .., _ => throw .grammar
  | .union branches, d => do
    let symbols ← expandBranches resolve branches
    pure (.sequence [.token .union none, .choice (branches.map label) symbols d])
  | .unchecked _, _ => throw .grammar

def expandBranches (resolve : String → Expansion Symbol) :
    List Schema → Expansion (List Symbol)
  | [] => pure []
  | s :: rest => do
    let s ← expandWith resolve s none
    let rest ← expandBranches resolve rest
    pure (s :: rest)

def expandFields (resolve : String → Expansion Symbol) (record : String)
    (again : Bool) : List (FieldHead × Schema) → Expansion (List Symbol)
  | [] => pure []
  | (f, s) :: rest => do
    let inner ←
      if again && mentions record s then pure nullOnly
      else expandWith resolve s (defaultCell? f)
    let rest ← expandFields resolve record again rest
    pure (.fieldStart f.name :: inner :: .fieldEnd :: rest)

end

/-- Expand a schema, given how many named types may be expanded inside one another. -/
def expand (defs : Definitions) : Nat → Schema → Option Cell → Expansion Symbol
  | 0 => fun _ _ => throw .tooDeep
  | fuel + 1 => expandWith fun name =>
    match defs.find? name with
    | some s => expand defs fuel s none
    | none => throw .grammar

/-- The grammar of a schema whose defaults are placed. -/
def of (s : Schema) : Except DataFault Symbol :=
  (expand (.of s) maxNesting s none).run' []

end Grammar
end Document
end Avro
end StreamTable
