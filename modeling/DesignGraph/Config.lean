import DesignGraph.Graph.Loading
import DesignGraph.Program
import DesignGraph.Toml.Reader

/-!
# Project configuration

The file `tessera.toml` of a project names the project and its graph document and sets the options
of the compiler.  Keys that are not known are passed over.
-/

namespace DesignGraph

structure ProjectConfig where
  /-- The directory of the configuration, with every link followed. -/
  root : Path
  name : String
  graph : Path := ⟨"", ["graph.yaml"]⟩
  compiler : CompilerOptions := {}

namespace ProjectConfig

def fileName : String := "tessera.toml"

def graphPath (config : ProjectConfig) : Path := config.root.join config.graph

/-- A section, of which every field is read from a mapping. -/
def readSection {α : Type} (read : List (Value × Value) → Checked α) : Value → Checked α
  | .map entries => read entries
  | _ => Checked.fail .recordKind

def nonempty (v : Value) : Checked String := do
  let s ← Checked.text v
  if s = "" then Checked.fail .textTooShort else pure s

def readProject (fields : List (Value × Value)) : Checked (String × Path) :=
  Checked.both (Checked.required "name" nonempty (Value.field? fields "name"))
    (Checked.optional "graph" ⟨"", ["graph.yaml"]⟩ Checked.path (Value.field? fields "graph"))

def readCompiler (fields : List (Value × Value)) : Checked CompilerOptions :=
  let fallback : CompilerOptions := {}
  let field := Value.field? fields
  let target := Checked.optional "target" fallback.target Checked.text (field "target")
  let output := Checked.optional "output" fallback.outputPath Checked.path (field "output")
  let sdkVersion :=
    Checked.optional "sdk_version" fallback.sdkVersion Checked.text (field "sdk_version")
  let hotPort := Checked.optional "hot_port" fallback.hotPort Checked.port (field "hot_port")
  let options := Checked.optional "options" fallback.targetOptions (Checked.mapping .ok)
    (field "options")
  (Checked.both target (Checked.both output (Checked.both sdkVersion
    (Checked.both hotPort options)))).map
    fun (target, output, sdkVersion, hotPort, options) =>
      ⟨target, sdkVersion, output, hotPort, options⟩

/-- The configuration that a table describes; a section that is missing counts as empty. -/
def ofTable (root : Path) (table : List (Value × Value)) : Checked ProjectConfig :=
  let given (name : String) : Option Value := some ((Value.field? table name).getD (.map []))
  (Checked.both (Checked.required "project" (readSection readProject) (given "project"))
    (Checked.required "compiler" (readSection readCompiler) (given "compiler"))).map
    fun ((name, graph), compiler) => ⟨root, name, graph, compiler⟩

/-- Load the configuration from its file or from the directory that holds it. -/
def load (tree : FileTree) (path : Path) : Except Fault ProjectConfig := do
  let path := if ← tree.ask FileTree.isDirectory path then path.joinText fileName else path
  if !(← tree.ask FileTree.isPresent path) then throw (.config (.missing path))
  match Toml.read (← tree.readText path) with
  | .error (.malformed reason) => throw (.config (.malformed path reason))
  | .error (.scalar fault) => throw fault
  | .ok (.map table) =>
      (ofTable (tree.realPath path.parent) table).mapError fun issues =>
        .config (.invalid path issues)
  | .ok _ => throw .kind

/-- The program of a project.  An empty `target` does not override the configured one. -/
def buildProgram (tree : FileTree) (config : ProjectConfig) (target : Option String)
    (output : Option Path) (hot : Bool) : Except Fault Program := do
  let document ← GraphDocument.load tree config.graphPath
  let target := match target with
    | some "" => config.compiler.target
    | some name => name
    | none => config.compiler.target
  let options := { config.compiler with
    target := target
    outputPath := output.getD config.compiler.outputPath }
  let program : Program := ⟨config.name, config.root, document.graph, document.roots, options, hot⟩
  program.checkRoots.mapError fun issues => .graph (.programInvalid issues)

end ProjectConfig

end DesignGraph
