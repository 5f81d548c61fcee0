import DesignGraph.Compile.Spec
import DesignGraph.FileTree
import DesignGraph.Program
import DesignGraph.Target

/-!
# Bindings

A binding augments a component type for one target: source files and declarations of its own,
imports and dependencies, and on demand its own construction and the assets of its instances.

An asset binder does not change anything itself.  It answers with what it adds to the package:
static assets and entries of the style sheets.
-/

namespace DesignGraph

/-- A package that sources depend on. `url` tells where a Swift package is found. -/
structure Dependency where
  name : String
  url : Option String := none
  versionConstraint : String
  deriving Repr, DecidableEq

namespace Dependency

/-- Add a dependency unless one of its name is present: the first one wins, whatever the
versions. -/
def merge (dependencies : OrderedSet Dependency) (new : Dependency) : OrderedSet Dependency :=
  if dependencies.items.any (·.name == new.name) then dependencies else dependencies.insert new

def mergeAll (dependencies : OrderedSet Dependency) (new : List Dependency) :
    OrderedSet Dependency :=
  new.foldl merge dependencies

end Dependency

/-- The content of a static asset. -/
inductive Asset
  /-- The bytes of a file. -/
  | copyOf (path : String)
  | bytes (content : ByteArray)
  | text (content : String)

abbrev StyleRules := OrderedMap String String

/-- What an asset binder adds to a package. -/
inductive Effect
  | asset (name : String) (asset : Asset)
  | styleVariable (name value : String)
  | ruleGroup (name : String) (rules : StyleRules)
  | font (key : Value) (rules : StyleRules)

/-- What an asset binder may look at. -/
structure Surroundings where
  target : Target
  tree : FileTree
  program : Program
  hotUrl : Option String

abbrev AssetBinder := Surroundings → Instance → Option Reference → Except Fault (List Effect)

structure Binding where
  sources : List Path := []
  /-- Declaration files that take the place of the generated ones. -/
  declarations : List Path := []
  dependencies : List Dependency := []
  /-- Modules that the sources import. -/
  imports : List String := []
  /-- Whether properties of the type may change while they are displayed. -/
  updatable : Bool := false
  initializer : Option (Instance → Except Fault String) := none
  assets : Option AssetBinder := none

end DesignGraph
