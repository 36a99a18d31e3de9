/-
The tokens of a YAML document: indicators, the ends of indented blocks, properties of nodes, and
scalars.
-/
import StreamTable.Failure

namespace StreamTable
namespace Yaml

/-- Why a document cannot be read. -/
inductive Fault where
  /-- It does not follow the rules of YAML. -/
  | malformed
  /-- A scalar does not have the value that its tag promises. -/
  | data (fault : DataFault)

inductive Directive where
  | version (major : Nat)
  /-- A handle for tags, and the text that it stands for. -/
  | tag (handle stem : String)
  | other
deriving DecidableEq

inductive Token where
  | directive (d : Directive)
  | documentStart
  | documentEnd
  | streamEnd
  | blockSequenceStart
  | blockMappingStart
  | blockEnd
  | flowSequenceStart
  | flowSequenceEnd
  | flowMappingStart
  | flowMappingEnd
  | blockEntry
  | flowEntry
  | key
  | value
  | reference (name : String)
  | anchor (name : String)
  /-- A tag, by its handle and the text after it; a verbatim tag has no handle. -/
  | tag (handle : Option String) (suffix : String)
  | scalar (text : String) (plain : Bool)
deriving DecidableEq

end Yaml
end StreamTable
