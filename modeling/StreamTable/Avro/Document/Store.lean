/-
The nodes of a JSON document while a row is read from it.  Reading takes items off arrays and
entries out of objects, and a field that is missing is read from the default that the schema gives
it, which is thereby used up as well.  So documents and defaults are kept in one store, and a node
is known by its cell.
-/
import StreamTable.Avro.Schema

namespace StreamTable
namespace Avro
namespace Document

abbrev Cell := Nat

inductive Node where
  | leaf (v : Value)
  | list (items : List Cell)
  | map (entries : List (String × Cell))
deriving Inhabited

structure Store where
  nodes : Array Node

namespace Store

def empty : Store := ⟨#[]⟩

def node (s : Store) (c : Cell) : Node := (s.nodes[c]?).getD (.leaf .null)

def write (s : Store) (c : Cell) (n : Node) : Store := ⟨s.nodes.setIfInBounds c n⟩

def add (s : Store) (n : Node) : Cell × Store := (s.nodes.size, ⟨s.nodes.push n⟩)

mutual

/-- Enter a value with everything inside it. -/
def enter (s : Store) : Value → Cell × Store
  | .list xs =>
    let (cells, s) := enterItems s xs
    s.add (.list cells)
  | .map es =>
    let (entries, s) := enterEntries s es
    s.add (.map entries)
  | v => s.add (.leaf v)

def enterItems (s : Store) : List Value → List Cell × Store
  | [] => ([], s)
  | x :: xs =>
    let (c, s) := enter s x
    let (cs, s) := enterItems s xs
    (c :: cs, s)

def enterEntries (s : Store) : List (Value × Value) → List (String × Cell) × Store
  | [] => ([], s)
  | (k, v) :: es =>
    let (c, s) := enter s v
    let (cs, s) := enterEntries s es
    ((k.asStr?.getD "", c) :: cs, s)

end

/-- The value at a cell as it is now, down to a depth. -/
def value (s : Store) : Nat → Cell → Value
  | 0, _ => .null
  | depth + 1, c =>
    match s.node c with
    | .leaf v => v
    | .list cells => .list (cells.map (s.value depth))
    | .map entries => .map (entries.map fun e => (.str e.1, s.value depth e.2))

end Store

/-- How deep documents may be. -/
def maxDepth : Nat := 2000

end Document

namespace Schema

mutual

/-- Replace every default of a field, from left to right. -/
def mapDefaults {σ : Type} (f : Value → StateM σ Value) : Schema → StateM σ Schema
  | .array items attrs => do pure (.array (← mapDefaults f items) attrs)
  | .map values attrs => do pure (.map (← mapDefaults f values) attrs)
  | .record isError name fields attrs => do
    pure (.record isError name (← mapFieldDefaults f fields) attrs)
  | .union branches => do pure (.union (← mapBranchDefaults f branches))
  | s => pure s

def mapBranchDefaults {σ : Type} (f : Value → StateM σ Value) :
    List Schema → StateM σ (List Schema)
  | [] => pure []
  | s :: rest => do
    let s ← mapDefaults f s
    let rest ← mapBranchDefaults f rest
    pure (s :: rest)

def mapFieldDefaults {σ : Type} (f : Value → StateM σ Value) :
    List (FieldHead × Schema) → StateM σ (List (FieldHead × Schema))
  | [] => pure []
  | (h, s) :: rest => do
    let h ← match h.default? with
      | some d => do
        let d ← f d
        pure { h with attributes := Value.put h.attributes (.str "default") d }
      | none => pure h
    let s ← mapDefaults f s
    let rest ← mapFieldDefaults f rest
    pure ((h, s) :: rest)

end

/-- The schema with its defaults entered into a store; each default is the number of its cell. -/
def placeDefaults (s : Schema) (store : Document.Store) : Schema × Document.Store :=
  (mapDefaults (fun d => do
    let (c, store) := (← get).enter d
    set store
    pure (.int c)) s).run store

/-- The defaults whose cells a placed schema holds, from left to right, as they are now. -/
def defaultsIn (store : Document.Store) (placed : Schema) : List Value :=
  ((mapDefaults (fun d => do
    let c := (d.asInt?.getD 0).toNat
    modify (store.value Document.maxDepth c :: ·)
    pure d) placed).run []).2.reverse

def withDefaults (s : Schema) (defaults : List Value) : Schema :=
  ((mapDefaults (fun d => do
    match ← get with
    | [] => pure d
    | d :: rest =>
      set rest
      pure d) s).run defaults).1

end Schema
end Avro
end StreamTable
