import DesignGraph.Disk
import DesignGraph.Template.Render

/-!
# Skeletons of packages

A skeleton is a set of files under relative names.  Filling it in renders every name as a template
and, of the files whose name ends in `.j2`, the content; the other files are copied as they are.
What was filled in before a fault stays.
-/

namespace DesignGraph.Template

def suffix : String := ".j2"

/-- One file of a skeleton. -/
structure Piece where
  /-- The name relative to the skeleton. -/
  name : String
  /-- Where it is found, for diagnostics and for copying. -/
  origin : Path
  /-- The text of a template, when it need not be read. -/
  text : Option String := none

namespace Piece

def isTemplate (piece : Piece) : Bool := piece.origin.suffix = suffix

/-- The text of a template: lines end with a line feed. -/
def source (piece : Piece) : Disk String := do
  match piece.text with
  | some s => pure s
  | none => do pure (String.ofList (Text.unifyLineEnds (← Disk.readText piece.origin).toList))

/-- Write the file below a directory; where it was written. -/
def fill (piece : Piece) (destination : Path) (data : List (String × Value)) : Disk Path := do
  let target := destination.joinText (← Disk.ofExcept (renderText piece.name data))
  Disk.makeDirectories target.parent
  if piece.isTemplate then
    let target := target.withoutSuffix
    let content ← Disk.ofExcept (renderAt piece.origin (some (← piece.source)) data)
    Disk.writeText target content
    pure target
  else
    match piece.text with
    | some s => Disk.writeText target s
    | none => Disk.copy piece.origin target
    pure target

end Piece

/-- The files of the skeleton in a directory, in the order of their paths. -/
def piecesBelow (tree : FileTree) (root : Path) : List Piece :=
  (tree.filesBelow root).map fun parts =>
    { name := "/".intercalate parts, origin := { root with parts := root.parts ++ parts } }

/-- Fill in pieces below a directory, which is made if it is missing; where they were written. -/
def fillAll (pieces : List Piece) (destination : Path) (data : List (String × Value)) :
    Disk (List Path) := do
  Disk.makeDirectories destination
  pieces.mapM fun piece => piece.fill destination data

/-- Fill in the skeleton in a directory. -/
def fillSkeleton (root destination : Path) (data : List (String × Value)) : Disk (List Path) := do
  if !(← Disk.ofExcept ((← Disk.tree).ask FileTree.isDirectory root)) then
    throw (.compilation (.skeletonMissing root))
  fillAll (piecesBelow (← Disk.tree) root) destination data

end DesignGraph.Template
