/-
The values of nodes, and `Yaml.read`, which reads a whole text.  A mapping first takes over the
entries of the mappings that its merge keys name; its own entries win over them.
-/
import StreamTable.Text.Lines
import StreamTable.Value.Equality
import StreamTable.Yaml.Node
import StreamTable.Yaml.Token.Lexer

namespace StreamTable
namespace Yaml
namespace Node

def tag : Node → Tag
  | .scalar tag _ => tag
  | .sequence tag _ => tag
  | .mapping tag _ => tag

/-- A key for the value of a mapping is an ordinary text as a key among others. -/
def asKey : Node → Node
  | .scalar .value text => .scalar .text text
  | node => node

mutual

/-- The entries of a mapping, those taken over from others first. -/
def entries : Node → Except Fault (List (Node × Node))
  | .mapping _ es => do
    let (merged, own) ← split es
    return merged ++ own
  | _ => .error .malformed

/-- The entries that merge keys bring in, and the others. -/
def split : List (Node × Node) → Except Fault (List (Node × Node) × List (Node × Node))
  | [] => .ok ([], [])
  | (k, v) :: rest => do
    if k.tag = .merge then
      let offered ← offered v
      let (merged, own) ← split rest
      return (offered ++ merged, own)
    else
      let (merged, own) ← split rest
      return (merged, (k.asKey, v) :: own)

/-- The entries that the node of a merge key offers: a mapping, or several, the first of which wins
over the later ones. -/
def offered : Node → Except Fault (List (Node × Node))
  | .mapping _ es => do
    let (merged, own) ← split es
    return merged ++ own
  | .sequence _ items => do return (← offeredByAll items).reverse.flatten
  | .scalar .. => .error .malformed

def offeredByAll : List Node → Except Fault (List (List (Node × Node)))
  | [] => .ok []
  | item :: rest => do
    let es ← item.entries
    return es :: (← offeredByAll rest)

end

mutual

/-- The text of a scalar, or of the scalar that stands for a mapping. -/
def scalarText : Node → Except Fault String
  | .scalar _ text => .ok text
  | .mapping _ es => textOfValueKey es
  | .sequence .. => .error .malformed

def textOfValueKey : List (Node × Node) → Except Fault String
  | [] => .error .malformed
  | (k, v) :: rest => if k.tag = .value then v.scalarText else textOfValueKey rest

end

mutual

def depth : Node → Nat
  | .scalar .. => 1
  | .sequence _ items => depthOfAll items + 1
  | .mapping _ es => depthOfEntries es + 1

def depthOfAll : List Node → Nat
  | [] => 0
  | item :: rest => max item.depth (depthOfAll rest)

def depthOfEntries : List (Node × Node) → Nat
  | [] => 0
  | (k, v) :: rest => max (max k.depth v.depth) (depthOfEntries rest)

end

def ofData (r : Except DataFault Value) : Except Fault Value := r.mapError Fault.data

def valueWithin : Nat → Node → Except Fault Value
  | 0, _ => .error (.data .tooDeep)
  | depth + 1, node => do
    let pairs : Except Fault (List (Value × Value)) := do
      (← node.entries).mapM fun e => do
        let k ← valueWithin depth e.1
        if !k.isHashable then throw .malformed
        return (k, ← valueWithin depth e.2)
    let tuples : Except Fault (List Value) :=
      match node with
      | .sequence _ items => items.mapM fun item =>
        match item with
        | .mapping _ [(k, v)] => do
          let k ← valueWithin depth k
          return .tuple [k, ← valueWithin depth v]
        | _ => .error .malformed
      | _ => .error .malformed
    match node.tag with
    | .null => do
      let _ ← node.scalarText
      pure .null
    | .boolean => ofData (Content.boolean (← node.scalarText))
    | .integer => ofData (Content.integer (← node.scalarText).toList)
    | .float => ofData (Content.float (← node.scalarText).toList)
    | .timestamp => ofData (Content.timestamp (← node.scalarText).toList)
    | .text => return .str (← node.scalarText)
    | .bytes =>
      match Content.bytes? (← node.scalarText).toList with
      | some b => pure (.bytes b)
      | none => throw .malformed
    | .sequence =>
      match node with
      | .sequence _ items => return .list (← items.mapM (valueWithin depth))
      | _ => throw .malformed
    | .mapping => return .ofPairs (← pairs)
    | .set => return .set ((Value.putAll [] (← pairs)).map (·.1))
    | .orderedMap => return .list (← tuples)
    | .pairs => return .list (← tuples)
    | .merge => throw .malformed
    | .value => throw .malformed
    | .unknown => throw .malformed

def toValue (node : Node) : Except Fault Value := valueWithin node.depth node

end Node

/-- The value of the document in a text, null if the text is empty. -/
def read (s : String) : Except Fault Value := do
  let document ← Node.ofTokens (← tokens (Text.unifyLineEnds s.toList))
  match document with
  | none => pure .null
  | some node => node.toValue

end Yaml
end StreamTable
