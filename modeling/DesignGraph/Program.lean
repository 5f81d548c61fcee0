import DesignGraph.Graph.Document

/-!
# Programs

A component graph submitted for compilation: the roots that make up the package, and the options
that every target knows.

A root is named like the type of the instance that it refers to, and that instance exists.
-/

namespace DesignGraph

structure CompilerOptions where
  target : String := "web"
  sdkVersion : String := "0.1.0"
  outputPath : Path := ⟨"", ["build"]⟩
  hotPort : Nat := 8081
  /-- Options of the single target, by name. -/
  targetOptions : OrderedMap String Value := ⟨[]⟩

structure Program where
  projectName : String
  /-- Where relative paths of assets start. -/
  projectRoot : Path
  graph : Graph
  roots : OrderedMap String String := ⟨[]⟩
  options : CompilerOptions := {}
  hot : Bool := false

namespace CompilerOptions

/-- Options from a mapping in which every field may be left out. -/
def ofFields (fields : List (Value × Value)) : Checked CompilerOptions :=
  let fallback : CompilerOptions := {}
  let field := Value.field? fields
  let target := Checked.optional "target" fallback.target Checked.text (field "target")
  let sdkVersion :=
    Checked.optional "sdk_version" fallback.sdkVersion Checked.text (field "sdk_version")
  let outputPath :=
    Checked.optional "output_path" fallback.outputPath Checked.path (field "output_path")
  let hotPort := Checked.optional "hot_port" fallback.hotPort Checked.port (field "hot_port")
  let targetOptions := Checked.optional "target_options" fallback.targetOptions
    (Checked.mapping .ok) (field "target_options")
  (Checked.both target (Checked.both sdkVersion (Checked.both outputPath
    (Checked.both hotPort targetOptions)))).map
    fun (target, sdkVersion, outputPath, hotPort, targetOptions) =>
      ⟨target, sdkVersion, outputPath, hotPort, targetOptions⟩

end CompilerOptions

namespace Program

/-- What is wrong with a root, if anything. -/
def rootProblem? (graph : Graph) (name id : String) : Option String :=
  match graph.instances.get? id with
  | none => some ("Root " ++ inQuotes name ++ " references unknown instance " ++ inQuotes id)
  | some inst =>
      if inst.type = name then none
      else some ("Root " ++ inQuotes name ++ " references an instance of type "
        ++ inQuotes inst.type)

/-- The first wrong root ends the check. -/
def checkRoots (program : Program) : Checked Program :=
  match program.roots.entries.findSome? fun (name, id) => rootProblem? program.graph name id with
  | some problem => Checked.fail (.rule problem)
  | none => .ok program

/-- A program from values that may be of any kind. -/
def ofValues (root : Path) (graph : Graph) (options : CompilerOptions) (name roots : Value)
    (hot : Option Value) : Checked Program := do
  let fields := Checked.both (Checked.required "project_name" Checked.text (some name))
    (Checked.both (Checked.required "roots" (Checked.mapping Checked.text) (some roots))
      (Checked.optional "hot" false Checked.switch hot))
  let (name, roots, hot) ← fields
  checkRoots ⟨name, root, graph, roots, options, hot⟩

/-- The names of the components that the project defines. -/
def localComponentNames (program : Program) : List String := program.roots.keys

end Program

end DesignGraph
