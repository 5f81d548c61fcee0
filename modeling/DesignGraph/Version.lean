import DesignGraph.Graph.Loading
import DesignGraph.Toml.Reader

/-!
# Version

The version of the tool is that of the manifest beside its sources, if there is one and it is the
tool's own, and otherwise that of the installed distribution.
-/

namespace DesignGraph.Version

/-- What is reported when nothing knows the version. -/
def unknown : String := "0.0.0"

/-- The version that a manifest gives, if it is the manifest of this tool. -/
def ofManifest? (text : String) : Except Fault (Option Value) :=
  match Toml.read text with
  | .error (.malformed _) => .error .malformedTable
  | .error (.scalar fault) => .error fault
  | .ok (.map table) =>
      match (Value.field? table "project").getD (.map []) with
      | .map project =>
          .ok (if Value.field? project "name" == some (.text "tessera") then
            Value.field? project "version" else none)
      | _ => .error .missingMember
  | .ok _ => .error .kind

def find (tree : FileTree) (manifest : Path) (installed : Option String) : Except Fault Value := do
  let given ← if ← tree.ask FileTree.isFile manifest then ofManifest? (← tree.readText manifest)
    else pure none
  pure (given.getD (.text (installed.getD unknown)))

end DesignGraph.Version
