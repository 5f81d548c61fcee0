import DesignGraph.Fault
import DesignGraph.FileTree

/-!
# Changes to a file tree

Steps that read and write a file tree.  A fault ends them and leaves in the tree what was written
before it.
-/

namespace DesignGraph

abbrev Disk := ExceptT Fault (StateM FileTree)

/-- A path that no file can have does not denote anything. -/
def Fault.ofRefusal : FileTree.Refusal → Fault
  | .malformedName => .content
  | _ => .fileSystem

/-- The answer to a question about a path. A name that is too long is no absence: the question is
refused. -/
def FileTree.ask (tree : FileTree) (question : FileTree → Path → Bool) (path : Path) :
    Except Fault Bool :=
  match tree.lookup path with
  | .error .nameTooLong => .error (.ofRefusal .nameTooLong)
  | _ => .ok (question tree path)

/-- The path with every link followed. There is none if a link is left in it that leads back to
itself. -/
def FileTree.resolve (tree : FileTree) (path : Path) : Except Fault Path :=
  match tree.lookup (tree.realPath path) with
  | .error .tooManyLinks => .error .circularLink
  | _ => .ok (tree.realPath path)

namespace Disk

def tree : Disk FileTree := get

/-- A step that does not look at the tree. -/
def ofExcept {α : Type} (result : Except Fault α) : Disk α :=
  match result with
  | .ok a => pure a
  | .error fault => throw fault

/-- A step that may be refused. -/
def refusable {α : Type} (result : Except FileTree.Refusal α) : Disk α :=
  ofExcept (result.mapError Fault.ofRefusal)

/-- A step that changes the tree, or is refused and changes nothing. -/
def change (step : FileTree → Except FileTree.Refusal FileTree) : Disk Unit := do
  set (← refusable (step (← tree)))

/-- A step that has changed the tree, or has been refused and has left a part of its changes. -/
def leave : Except (FileTree.Refusal × FileTree) FileTree → Disk Unit
  | .ok made => set made
  | .error (refusal, left) => do
      set left
      throw (.ofRefusal refusal)

/-- What is made before a refusal stays. -/
def makeDirectories (path : Path) : Disk Unit := do
  leave ((← tree).makeDirectoriesTo path path.parts.length)

def write (path : Path) (content : ByteArray) : Disk Unit := change (·.write path content)

def writeText (path : Path) (text : String) : Disk Unit := write path text.toUTF8

def copy (source target : Path) : Disk Unit := change (·.copy source target)

def read (path : Path) : Disk ByteArray := do refusable ((← tree).read path)

/-- The text of a file encoded in UTF-8. -/
def readText (path : Path) : Disk String := do
  match String.fromUTF8? (← read path) with
  | some s => pure s
  | none => throw .encoding

end Disk

end DesignGraph
