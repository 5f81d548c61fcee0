import DesignGraph.Compile.Construction
import DesignGraph.Compile.Output
import DesignGraph.Disk
import DesignGraph.Ios.Binding
import DesignGraph.Web.Binding

/-!
# Compilers

A compiler is set up once for a target and a project; the package keeps its place and its name from
then on.  Its state is the program at hand, what the run has put together so far, and the file tree.
A fault ends a step and leaves the state as it is.
-/

namespace DesignGraph

/-- What stays the same for the life of a compiler. -/
structure Setup where
  target : Target
  bindings : OrderedMap String Binding
  /-- The directory of the stock files. -/
  installed : Path
  /-- The address under which this host is found, or why there is none. -/
  host : Except String String
  projectName : String
  /-- The directory that the package is written to. -/
  sdkRoot : Path

structure Compiler where
  program : Program
  tree : FileTree
  output : Output := {}
  hotUrl : Option String := none
  hotStaticRoot : Option Path := none
  warnings : List Warning := []
  /-- Whether a run is under way, so that sources can be rendered. -/
  isRunning : Bool := false

abbrev Compilation := ExceptT Fault (StateM Compiler)

namespace Target

def bindings (installed : Path) : Target → OrderedMap String Binding
  | web => Web.bindings installed
  | ios => Ios.bindings installed

/-- The directory of the package of a program. -/
def sdkRootOf (target : Target) (program : Program) : Path :=
  (program.projectRoot.join program.options.outputPath).joinText
    ("tessera-" ++ program.projectName ++ "-" ++ target.name)

/-- What every output begins with. -/
def seed (target : Target) (installed : Path) : Output :=
  match target with
  | web => {
      sources := ⟨[.file (Stock.path installed .web "core/Tessera.js")]⟩
      declarations := ⟨[.file (Stock.path installed .web "core/Tessera.d.ts")]⟩ }
  | ios => {
      sources := ⟨[.file (Stock.path installed .ios "core/Tessera.swift")]⟩
      imports := ⟨["Foundation"]⟩ }

end Target

namespace Setup

/-- The set-up for the package of a program. -/
def ofProgram (target : Target) (installed : Path) (bindings : OrderedMap String Binding)
    (host : Except String String) (program : Program) : Setup :=
  ⟨target, bindings, installed, host, program.projectName, target.sdkRootOf program⟩

def moduleName (setup : Setup) : String :=
  match setup.target with
  | .web => "tessera-" ++ Naming.kebab setup.projectName
  | .ios => "Tessera" ++ Naming.pascal setup.projectName

/-- The directory that static assets are written to. -/
def staticRoot (setup : Setup) : Path :=
  match setup.target with
  | .web => setup.sdkRoot.joinText "static"
  | .ios => ((setup.sdkRoot.joinText "Sources").joinText setup.moduleName).joinText "Static"

/-- The source that hot clients load as well. -/
def hotComponent (setup : Setup) : Path :=
  match setup.target with
  | .web => Stock.path setup.installed .web "hot/component.js"
  | .ios => Stock.path setup.installed .ios "hot/HotComponent.swift"

def compiler (setup : Setup) (program : Program) (tree : FileTree) : Compiler :=
  { program := program, tree := tree, output := setup.target.seed setup.installed }

end Setup

namespace Compilation

def ofExcept {α : Type} (result : Except Fault α) : Compilation α :=
  match result with
  | .ok a => pure a
  | .error fault => throw fault

/-- A step on the file tree alone. -/
def onDisk {α : Type} (step : Disk α) : Compilation α := do
  let compiler ← get
  let (result, tree) := step.run.run compiler.tree
  set { compiler with tree := tree }
  ofExcept result

def changeOutput (change : Output → Output) : Compilation Unit :=
  modify fun compiler => { compiler with output := change compiler.output }

def warn (warning : Warning) : Compilation Unit :=
  modify fun compiler => { compiler with warnings := compiler.warnings ++ [warning] }

/-- Begin a new output. The address of the hot server stays. -/
def clear (setup : Setup) : Compilation Unit :=
  modify fun compiler => { compiler with
    output := setup.target.seed setup.installed
    warnings := [] }

end Compilation

end DesignGraph
