/-
Whether a value fits a schema.  Values of logical types are prepared first, so a date fits an
integer type that is annotated as a date.  Named types are looked up where they are used; the
checker recurses on the schema, and on a count of look-ups where a name is met.
-/
import StreamTable.Avro.Logical

namespace StreamTable
namespace Avro

/-- How many names may be looked up inside one another. -/
def maxNesting : Nat := 1000

namespace Validation

def minInt : Int := -2147483648

def maxInt : Int := 2147483647

def minLong : Int := -9223372036854775808

def maxLong : Int := 9223372036854775807

def fitsPrimitive (p : Primitive) (v : Value) : Bool :=
  match p, v with
  | .null, .null => true
  | .boolean, .bool _ => true
  | .int, .int n => minInt ≤ n && n ≤ maxInt
  | .long, .int n => minLong ≤ n && n ≤ maxLong
  | .float, .int _ => true
  | .float, .float _ => true
  | .double, .int _ => true
  | .double, .float _ => true
  | .bytes, .bytes _ => true
  | .bytes, .bytearray _ => true
  | .string, .str _ => true
  | _, _ => false

/-- Whether a prepared value is bytes of a size. -/
def fitsFixed (size v : Value) : Bool :=
  match v with
  | .bytes b => size.same (.int b.length)
  | _ => false

def items? : Value → Option (List Value)
  | .list xs => some xs
  | .tuple xs => some xs
  | .bytes b => some (b.map fun x => .int x.toNat)
  | .bytearray b => some (b.map fun x => .int x.toNat)
  | _ => none

/-- Whether all of a list pass a check, the first failure ending it. -/
def allPass {α : Type} (check : α → Except DataFault Bool) : List α → Except DataFault Bool
  | [] => .ok true
  | x :: xs => do
    if ← check x then allPass check xs else pure false

/-- The value that a row holds for a field: its entry, the field's default, or null. -/
def fieldValue (row : List (Value × Value)) (f : FieldHead) : Except DataFault Value :=
  if f.name.isHashable then
    .ok ((Value.lookup row f.name).getD (f.default?.getD .null))
  else .error .wrongType

/-- The full name of a record, seen from the place where it stands. -/
def nameAt (path name : String) : String :=
  if name.toList.contains '.' || path.isEmpty then name else path ++ "." ++ name

/-- Whether a row's mark of its type, if it has one, names the record. -/
def typeMarkFits (row : List (Value × Value)) (name : String) : Bool :=
  match Value.field? row "-type" with
  | some mark => mark.isText name
  | none => true

/-- What a branch of a union is called in a pair of name and value. -/
def branchNameIs (s : Schema) (name : Value) : Bool :=
  match s with
  | .record false n _ _ => name.isText n
  | s => s.toValue.same name

/-- How a named type is checked: its name, the place, and the value. -/
abbrev Resolve := String → String → Value → Except DataFault Bool

mutual

/-- Whether a value fits a schema, named types being checked by `resolve`. -/
def checkWith (resolve : Resolve) : Schema → String → Value → Except DataFault Bool
  | .primitive p, _, v => .ok (fitsPrimitive p v)
  | .named name, path, v => resolve name path v
  | .annotated p attrs, _, v =>
    match Logical.of? p attrs with
    | some l => do
      let v ← l.prepare attrs v
      pure (fitsPrimitive p v)
    | none => .ok (fitsPrimitive p v)
  | .array items _, path, v =>
    match items? v with
    | some xs => allPass (checkWith resolve items path) xs
    | none => .ok false
  | .map values _, path, v =>
    match v with
    | .map es =>
      if es.all (·.1.isStr) then allPass (fun e => checkWith resolve values path e.2) es
      else .ok false
    | _ => .ok false
  | .enum _ symbols _, _, v => Schema.isSymbol symbols v
  | .fixed _ size attrs, _, v => do
    let v ← Logical.prepareFixed size attrs v
    pure (fitsFixed size v)
  | .record _ name fields _, path, v =>
    match v with
    | .map row =>
      let full := nameAt path name
      if typeMarkFits row full then checkFields resolve fields full row else .ok false
    | _ => .ok false
  | .union branches, path, v =>
    match v with
    | .tuple [name, v] => checkBranchNamed resolve branches path name v
    | .tuple _ => .error .wrongValue
    | v => checkBranches resolve branches path v
  | .unchecked _, _, _ => .error .wrongType

def checkFields (resolve : Resolve) :
    List (FieldHead × Schema) → String → List (Value × Value) → Except DataFault Bool
  | [], _, _ => .ok true
  | (f, s) :: rest, path, row => do
    let v ← fieldValue row f
    if ← checkWith resolve s (path ++ "." ++ f.name.text) v then checkFields resolve rest path row
    else pure false

def checkBranches (resolve : Resolve) :
    List Schema → String → Value → Except DataFault Bool
  | [], _, _ => .ok false
  | s :: rest, path, v => do
    if ← checkWith resolve s path v then pure true else checkBranches resolve rest path v

def checkBranchNamed (resolve : Resolve) :
    List Schema → String → Value → Value → Except DataFault Bool
  | [], _, _, _ => .ok false
  | s :: rest, path, name, v =>
    if branchNameIs s name then checkWith resolve s path v
    else checkBranchNamed resolve rest path name v

end

/-- Whether a value fits a schema, given the definitions of named types and how many look-ups may
follow one another. -/
def check (defs : Definitions) : Nat → Schema → String → Value → Except DataFault Bool
  | 0 => fun _ _ _ => .error .tooDeep
  | fuel + 1 => checkWith fun name path v =>
    match defs.find? name with
    | some s => check defs fuel s path v
    | none => .error .wrongValue

end Validation

namespace Schema

def fits (s : Schema) (v : Value) : Except Failure Bool :=
  match s.settle with
  | .error fault => .error (.schema fault)
  | .ok s => (Validation.check (.of s) maxNesting s "" v).mapError .data

end Schema
end Avro
end StreamTable
