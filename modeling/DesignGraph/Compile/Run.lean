import DesignGraph.Compile.Package

/-!
# Runs

A run clears the output, walks every root and writes the package.  To start a compiler is to check
the options of its target, to prepare hot serving if the program asks for it, and to run.
-/

namespace DesignGraph

structure CompilationResult where
  sdkRoot : Path
  files : List Path
  warnings : List Warning
  /-- The data that the skeleton of the package has received. -/
  data : List (String × Value)

namespace Compilation

/-- Drop the digits at the front; `none` if there are none. -/
def dropNumber? (cs : List Char) : Option (List Char) :=
  let rest := cs.dropWhile fun c => (Text.digitValue? c).isSome
  if rest.length < cs.length then some rest else none

/-- Whether nothing is left but at most so many further numbers, each after a point, and a line
feed at the very end. -/
def endsVersion : (parts : Nat) → List Char → Bool
  | _, [] => true
  | _, ['\n'] => true
  | parts + 1, '.' :: rest => match dropNumber? rest with
      | some rest => endsVersion parts rest
      | none => false
  | _, _ => false

/-- A version of one to three numbers. -/
def isVersion (s : String) : Bool :=
  match dropNumber? s.toList with
  | some rest => endsVersion 2 rest
  | none => false

/-- Check the options of the target. -/
def validateOptions (setup : Setup) : Compilation Unit := do
  let given := deploymentTarget (← get).program
  if setup.target = .ios && !isVersion given then
    throw (.compilation (.deploymentTarget given))

/-- Where static assets are written when a program is served hot. -/
def hotStaticRootOf (target : Target) (program : Program) : Path :=
  ((target.sdkRootOf program).parent.joinText ("." ++ target.name ++ "-hot")).joinText "static"

/-- Find out the address of the hot server and the place of its assets. -/
def prepareHot (setup : Setup) : Compilation Unit := do
  match setup.host with
  | .error reason => throw (.hostname reason)
  | .ok host => modify fun compiler => { compiler with
      hotUrl := some ("http://" ++ host ++ ":" ++ toString compiler.program.options.hotPort)
      hotStaticRoot := some (hotStaticRootOf setup.target compiler.program) }

/-- The steps of a run once the output is clear. -/
def runCleared (setup : Setup) : Compilation CompilationResult := do
  walkRoots setup
  let package ← writePackage setup
  pure ⟨setup.sdkRoot, package.files, (← get).warnings, package.data⟩

def setRunning (isRunning : Bool) : Compilation Unit :=
  modify fun compiler => { compiler with isRunning := isRunning }

/-- Compile the program, or a new one in its place. -/
def run (setup : Setup) (program : Option Program) : Compilation CompilationResult := do
  match program with
  | some program => modify fun compiler => { compiler with program := program }
  | none => pure ()
  clear setup
  setRunning true
  let result ← ExceptT.lift (ExceptT.run (runCleared setup))
  setRunning false
  ofExcept result

def start (setup : Setup) : Compilation CompilationResult := do
  validateOptions setup
  if (← get).program.hot then prepareHot setup
  run setup none

/-- What to do with the package that was compiled. -/
def usage (setup : Setup) (compiler : Compiler) : String :=
  let root := setup.sdkRoot.toText
  let module := setup.moduleName
  let component := (compiler.program.localComponentNames.head?).getD "Component"
  match setup.target with
  | .web =>
      let token := (compiler.output.styles.styleVariables.keys.head?).getD "variable-name"
      Text.ofLines [
        "Tessera package compiled to " ++ root ++ ".",
        "",
        "You can depend on " ++ module ++ " in package.json:",
        "\x7b",
        "  \"dependencies\": \x7b",
        "    \"" ++ module ++ "\": \"*\"",
        "  \x7d",
        "\x7d",
        "",
        "You can use the variables and classes defined by " ++ module
          ++ " in your CSS or Sass styles.",
        "  CSS:  rule: var(--" ++ token ++ ");",
        "  Sass: rule: $" ++ token ++ ";",
        "",
        "You can also bootstrap any of the components defined in your project from JavaScript:",
        "new Tessera(" ++ component ++ ").attach((component) => \x7b",
        "  // ...",
        "\x7d);"]
  | .ios =>
      Text.ofLines [
        "Tessera package compiled to " ++ root ++ ".",
        "",
        "You can depend on " ++ module ++ " with Swift Package Manager:",
        "    .package(path: \"" ++ root ++ "\")",
        "",
        "Then bootstrap any of the components defined in your project:",
        "import " ++ module,
        "",
        "Tessera(" ++ component ++ "()).attach \x7b component in",
        "    // ...",
        "\x7d"]

end Compilation

end DesignGraph
