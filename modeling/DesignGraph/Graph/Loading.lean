import DesignGraph.Disk
import DesignGraph.Graph.Document
import DesignGraph.Json.Reader
import DesignGraph.Yaml.Reader

/-!
# Loading graph documents

A graph document is a JSON text if its name ends in `.json`, in any letter case, and otherwise a
YAML text.  A document without content describes an empty graph.
-/

namespace DesignGraph

/-- The text of a file. -/
def FileTree.readText (tree : FileTree) (path : Path) : Except Fault String :=
  match tree.read path with
  | .error _ => .error .fileSystem
  | .ok content => match String.fromUTF8? content with
      | some s => .ok s
      | none => .error .encoding

namespace GraphDocument

def isJson (path : Path) : Bool :=
  Text.lower path.suffix.toList = ".json".toList

/-- The value that a document text stands for. -/
def decode (path : Path) (text : String) : Except Fault Value :=
  match if isJson path then Json.read text else Yaml.read text with
  | .ok value => .ok value
  | .error (.malformed reason) => .error (.graph (.documentMalformed path reason))
  | .error (.scalar fault) => .error fault

def load (tree : FileTree) (path : Path) : Except Fault GraphDocument := do
  if !(← tree.ask FileTree.isPresent path) then throw (.graph (.documentMissing path))
  let value ← decode path (← tree.readText path)
  ofValue (if value.isTruthy then value else .map [])

end GraphDocument

end DesignGraph
