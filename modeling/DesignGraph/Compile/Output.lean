import DesignGraph.Compile.Binding

/-!
# Output

Everything that one run puts together: the components in the order in which they were first met,
and the sources, imports, dependencies, assets and styles of the package.
-/

namespace DesignGraph

/-- What is known about one component type. `spec` is that of the first instance met. -/
structure Component where
  spec : Spec
  /-- The instances met, by id. -/
  instances : OrderedSet String := ⟨[]⟩
  binding : Option Binding := none

/-- A source of the package: a file, or the text that was rendered for a component. -/
inductive Source
  | file (path : Path)
  | rendered (component suffix text : String)
  deriving DecidableEq

/-- Style variables, style classes and font faces. -/
structure Styles where
  styleVariables : OrderedMap String String := ⟨[]⟩
  ruleGroups : OrderedMap String StyleRules := ⟨[]⟩
  fonts : OrderedMap Value StyleRules := ⟨[]⟩

structure Output where
  components : OrderedMap String Component := ⟨[]⟩
  sources : OrderedSet Source := ⟨[]⟩
  /-- Type declarations of a web package. -/
  declarations : OrderedSet Source := ⟨[]⟩
  /-- Module imports of an iOS package. -/
  imports : OrderedSet String := ⟨[]⟩
  dependencies : OrderedSet Dependency := ⟨[]⟩
  assets : OrderedMap String Asset := ⟨[]⟩
  styles : Styles := {}

namespace Output

/-- Add what an asset binder asks for. -/
def apply (output : Output) : Effect → Output
  | .asset name asset => { output with assets := output.assets.insert name asset }
  | .styleVariable name value => { output with styles := { output.styles with
      styleVariables := output.styles.styleVariables.insert name value } }
  | .ruleGroup name rules => { output with styles := { output.styles with
      ruleGroups := output.styles.ruleGroups.insert name rules } }
  | .font key rules => { output with styles := { output.styles with
      fonts := output.styles.fonts.insert key rules } }

def applyAll (output : Output) (effects : List Effect) : Output := effects.foldl apply output

/-- Add the files, imports and dependencies of a binding. -/
def mergeBinding (target : Target) (output : Output) (binding : Binding) : Output :=
  let merged := { output with
    sources := output.sources.insertAll (binding.sources.map .file)
    dependencies := Dependency.mergeAll output.dependencies binding.dependencies }
  match target with
  | .web => { merged with
      declarations := merged.declarations.insertAll (binding.declarations.map .file) }
  | .ios => { merged with imports := merged.imports.insertAll binding.imports }

/-- Change the component of a type, if it has been met. -/
def changeComponent (output : Output) (type : String) (change : Component → Component) : Output :=
  match output.components.get? type with
  | none => output
  | some component => { output with
      components := output.components.insert type (change component) }

end Output

end DesignGraph
