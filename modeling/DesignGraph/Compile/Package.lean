import DesignGraph.Compile.Singleton
import DesignGraph.Compile.Walk

/-!
# Packages

From the components that the walk has met to the files of the package: a class is rendered for each
component in the order in which they were met, the files of its binding follow it, and the assets,
the style sheets and the filled-in skeleton are written.
-/

namespace DesignGraph.Compilation

/-- The mapping of properties that class templates receive. -/
def propertiesValue (properties : OrderedMap String Property) : Value :=
  .map (properties.entries.map fun (name, property) =>
    (.text name, .map [(.text "type", .text property.type),
      (.text "initializer", .text property.initializer),
      (.text "updatable", .bool property.updatable)]))

/-- The data that class templates receive. -/
def specData (spec : Spec) : List (String × Value) :=
  [("component_name", .text spec.componentName), ("properties", propertiesValue spec.properties),
    ("public", .bool spec.isPublic)]

def classTemplate : Target → String
  | .web => "js.component.j2"
  | .ios => "swift.component.j2"

def classSuffix : Target → String
  | .web => ".js"
  | .ios => ".swift"

/-- A rendered text as a source of the package. Sources are rendered in the course of a run only. -/
def rendered (component suffix : String) (text : Except Fault String) : Compilation Source := do
  if !(← get).isRunning then throw (.compilation .stagingClosed)
  pure (.rendered component suffix (← ofExcept text))

/-- Render the class of a component. The class of a public component or of a singleton has a
default for every property. -/
def writeClass (setup : Setup) (spec : Spec) (hasDefaults : Bool) : Compilation Unit := do
  let text := Stock.render setup.installed setup.target (classTemplate setup.target)
    (specData spec ++ [("singleton", .bool hasDefaults)])
  let source ← rendered spec.componentName (classSuffix setup.target) text
  changeOutput fun output => { output with sources := output.sources.insert source }

/-- Render the declarations of a component, for targets that have them. -/
def writeDeclarations (setup : Setup) (spec : Spec) : Compilation Unit := do
  match setup.target with
  | .ios => pure ()
  | .web => do
      let text := Stock.render setup.installed .web "js.declaration.j2" (specData spec)
      let source ← rendered spec.componentName ".d.ts" text
      changeOutput fun output => { output with declarations := output.declarations.insert source }

/-- Add a component to the package: its class, the files of its binding, and its declarations
unless the binding has some. -/
def writeComponent (setup : Setup) (singletons : List String) (type : String) :
    Compilation Unit := do
  changeOutput fun output => output.changeComponent type fun component =>
    { component with
      spec := component.spec.useBareConstructions singletons setup.target.bareConstruction }
  match (← get).output.components.get? type with
  | none => pure ()
  | some component => do
      writeClass setup component.spec (component.spec.isPublic || singletons.contains type)
      match component.binding with
      | none => writeDeclarations setup component.spec
      | some binding => do
          changeOutput fun output => output.mergeBinding setup.target binding
          if binding.declarations.isEmpty then writeDeclarations setup component.spec

/-- Whether an asset may be written under a name: a relative path that does not lead upwards. -/
def isInside (name : String) : Bool :=
  let path := Path.ofString name
  !path.isAbsolute && !path.parts.contains ".."

def writeAsset (root : Path) (name : String) (asset : Asset) : Compilation Unit := do
  if !isInside name then throw (.compilation (.destinationOutside name))
  let destination := root.joinText name
  onDisk do
    Disk.makeDirectories destination.parent
    match asset with
    | .copyOf path => Disk.copy (Path.ofString path) destination
    | .bytes content => Disk.write destination content
    | .text content => Disk.writeText destination content

/-- Where static assets are written: beside the package when it is served hot. -/
def staticRootInUse (setup : Setup) (compiler : Compiler) : Path :=
  if compiler.program.hot then compiler.hotStaticRoot.getD setup.staticRoot else setup.staticRoot

def styleTokens : Compilation Style.Tokens := do
  let (tokens, output) := Style.tokens (← get).output
  changeOutput fun _ => output
  pure tokens

def writeStyleSheet (setup : Setup) (language : String) (tokens : Style.Tokens) :
    Compilation Unit := do
  let root := staticRootInUse setup (← get)
  onDisk (Disk.makeDirectories root)
  let text ← ofExcept
    (Stock.render setup.installed .web ("styles." ++ language ++ ".j2") tokens.data)
  onDisk (Disk.writeText (root.joinText ("styles." ++ language)) text)

/-- Write the static assets and, for the web, the style sheets. -/
def writeAssets (setup : Setup) : Compilation Unit := do
  if setup.target = .ios then onDisk (Disk.makeDirectories setup.staticRoot)
  let compiler ← get
  let root := staticRootInUse setup compiler
  compiler.output.assets.entries.forM fun (name, asset) => writeAsset root name asset
  if setup.target = .web then
    let tokens ← styleTokens
    writeStyleSheet setup "css" tokens
    writeStyleSheet setup "scss" tokens

/-- A text as it is read from a file: its line ends are unified. -/
def asRead (text : String) : String := String.ofList (Text.unifyLineEnds text.toList)

def readFile (tree : FileTree) (path : Path) : Except Fault String :=
  match tree.read path with
  | .error .missing => .error (.compilation (.sourceMissing path))
  | .error refusal => .error (.ofRefusal refusal)
  | .ok content => match String.fromUTF8? content with
      | some text => .ok (asRead text)
      | none => .error .encoding

/-- What the package holds of a source. A rendered text has been in a file as well. -/
def readSource (tree : FileTree) : Source → Except Fault String
  | .file path => readFile tree path
  | .rendered _ _ text => .ok (asRead text)

def readSources (sources : List Source) : Compilation (List String) := do
  let tree := (← get).tree
  ofExcept (sources.mapM (readSource tree))

/-- The entry of a dependency in the manifest. Each target knows its own kind only. -/
def dependencyValue (target : Target) (dependency : Dependency) : Except Fault Value :=
  let name := (Value.text "name", Value.text dependency.name)
  let version := (Value.text "version_constraint", Value.text dependency.versionConstraint)
  match target, dependency.url with
  | .web, none => .ok (.map [name, version])
  | .ios, some url => .ok (.map [name, (.text "url", .text url), version])
  | _, _ => .error .missingMember

def defaultDeploymentTarget : String := "13.0"

/-- The least system version that an iOS package supports. -/
def deploymentTarget (program : Program) : String :=
  match program.options.targetOptions.get? "deployment_target" with
  | some v => v.plain
  | none => defaultDeploymentTarget

def texts (items : List String) : Value := .list (items.map Value.text)

def urlValue (url : Option String) : Value := (url.map Value.text).getD .null

/-- The data that the skeleton of a package receives. -/
def packageData (setup : Setup) : Compilation (List (String × Value)) := do
  let compiler ← get
  let output := compiler.output
  let dependencies ← ofExcept (output.dependencies.items.mapM (dependencyValue setup.target))
  let sources ← readSources output.sources.items
  let shared : List (String × Value) := [("module_name", .text setup.moduleName),
    ("sdk_version", .text compiler.program.options.sdkVersion),
    ("dependencies", .list dependencies), ("sources", texts sources)]
  match setup.target with
  | .web => do
      let declarations ← readSources output.declarations.items
      pure (shared ++ [("declarations", texts declarations), ("declaration_imports", texts []),
        ("static_url", urlValue compiler.hotUrl)])
  | .ios => pure (shared ++ [("deployment_target", .text (deploymentTarget compiler.program)),
      ("imports", texts output.imports.items), ("hot_url", urlValue compiler.hotUrl)])

structure Package where
  files : List Path
  /-- The data that the skeleton has received. -/
  data : List (String × Value)

/-- Write the package of the components met so far. -/
def writePackage (setup : Setup) : Compilation Package := do
  let components := (← get).output.components
  let singletons := DesignGraph.singletons components
  components.keys.forM fun type => writeComponent setup singletons type
  if (← get).program.hot then
    changeOutput fun output =>
      { output with sources := output.sources.insert (.file setup.hotComponent) }
  writeAssets setup
  let data ← packageData setup
  let files ← onDisk
    (Template.fillAll (Stock.skeleton setup.installed setup.target) setup.sdkRoot data)
  pure ⟨files, data⟩

end DesignGraph.Compilation
