import DesignGraph.Compile.Run

/-!
# Registries of targets

Target compilers by name.  The built-in ones register under the names of their targets; others can
be added under names that are free.
-/

namespace DesignGraph

/-- What may be offered for registration: a compiler, or something else that has a display and
perhaps a name of its own. -/
inductive Registry.Candidate
  | compiler (target : Target)
  | other (shown : String) (name : Option String)

structure Registry where
  targets : OrderedMap String Target := ⟨[]⟩

namespace Registry

/-- The name of a compiler, as diagnostics call it. -/
def compilerName : Target → String
  | .web => "WebCompiler"
  | .ios => "IosCompiler"

def Candidate.name? : Candidate → Option String
  | compiler target => some (compilerName target)
  | other _ name => name

def register (registry : Registry) (name : String) (candidate : Candidate) :
    Except Fault Registry :=
  if registry.targets.contains name then
    match candidate.name? with
    | some newcomer => .error (.compilation (.targetTaken name newcomer))
    | none => .error .missingMember
  else match candidate with
    | .compiler target => .ok ⟨registry.targets.insert name target⟩
    | .other shown _ => .error (.compilation (.notCompiler shown))

def names (registry : Registry) : List String := registry.targets.keys

def get (registry : Registry) (name : String) : Except Fault Target :=
  match registry.targets.get? name with
  | some target => .ok target
  | none => .error (.compilation (.targetUnknown name registry.names))

/-- The compiler that a built-in module brings. -/
def moduleTarget? (name : String) : Option Target :=
  [("ios", Target.ios), ("ios.compiler", Target.ios), ("web", Target.web),
    ("web.compiler", Target.web)].lookup name

/-- Register what a module brings, unless its name is taken. -/
def addModule (registry : Registry) (name : String) : Registry :=
  match moduleTarget? name with
  | none => registry
  | some target =>
      if registry.targets.contains target.name then registry
      else ⟨registry.targets.insert target.name target⟩

/-- Register the built-in targets. -/
def discover (registry : Registry) : Registry := (registry.addModule "ios").addModule "web"

/-- The registry of the tool itself. -/
def builtin : Registry := discover {}

/-- The compiler for the target that a program names, with the bindings of the target. -/
def setup (registry : Registry) (installed : Path) (host : Except String String)
    (program : Program) : Except Fault Setup := do
  let target ← registry.get program.options.target
  pure (Setup.ofProgram target installed (target.bindings installed) host program)

end Registry

end DesignGraph
