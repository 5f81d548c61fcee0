import DesignGraph.Compile.Binding
import DesignGraph.Disk
import DesignGraph.Text.Line

/-!
# Assets

Files that instances name relative to the project.  With every link followed, such a file lies
below the project root.
-/

namespace DesignGraph.Asset

/-- The file that a relative path names in a project. -/
def locate (tree : FileTree) (root : Path) (source : String) : Except Fault Path := do
  if (Path.ofString source).isAbsolute then throw (.compilation (.assetAbsolute source))
  let realRoot ← tree.resolve root
  if (Path.ofString source).isMalformed then throw .content
  let path ← tree.resolve (realRoot.joinText source)
  if !realRoot.covers path then throw (.compilation (.assetOutside source))
  if !(← tree.ask FileTree.isFile path) then throw (.compilation (.assetMissing source root))
  pure path

/-- The text that an instance gives as its source, if it counts as given. -/
def sourceOf? (inst : Instance) : Except Fault (Option String) :=
  match inst.values.get? "src" with
  | none => .ok none
  | some v =>
      if !v.isTruthy then .ok none
      else match v with
        | .text s => .ok (some s)
        | _ => .error .kind

/-- Copy the file of an instance into the package, under its own name. -/
def fileBinder : AssetBinder := fun around inst _ => do
  match ← sourceOf? inst with
  | none => pure []
  | some source => do
      let path ← locate around.tree around.program.projectRoot source
      pure [.asset source (.copyOf path.toText)]

/-- The value of a property that has to be given. -/
def given (inst : Instance) (name : String) : Except Fault Value :=
  match inst.values.get? name with
  | some v => .ok v
  | none => .error .missingKey

end DesignGraph.Asset
