import DesignGraph.Stock.Ios
import DesignGraph.Stock.Web
import DesignGraph.Target
import DesignGraph.Template.Skeleton

/-!
# Stock files

Where the texts that come with the library are installed: below one directory, those of each target
in a directory of its own.
-/

namespace DesignGraph.Stock

def filesOf : Target → List (String × String)
  | .web => Web.files
  | .ios => Ios.files

/-- The directory of a target below that of all stock files. -/
def directory (installed : Path) (target : Target) : Path := installed.joinText target.name

def path (installed : Path) (target : Target) (name : String) : Path :=
  (directory installed target).joinText name

/-- A name as templates are looked up by: blank and dot segments do not count, and a segment that
leads upwards finds nothing. -/
def templateName? (name : String) : Option String :=
  let segments := (Text.cutAt '/' name.toList).map String.ofList
  if segments.contains ".." then none
  else some ("/".intercalate (segments.filter fun s => s ≠ "" && s ≠ "."))

def find? (target : Target) (name : String) : Option String :=
  (templateName? name).bind fun name => (filesOf target).lookup name

/-- Render a stock template. -/
def render (installed : Path) (target : Target) (name : String) (data : List (String × Value)) :
    Except Fault String :=
  Template.renderAt (path installed target name) (find? target name) data

/-- The directory in which a target keeps the skeleton of its packages. -/
def skeletonDirectory : String := "sdk/"

/-- The skeleton of a package, in the order of the paths of its files. -/
def skeleton (installed : Path) (target : Target) : List Template.Piece :=
  (filesOf target).filterMap fun (name, text) =>
    if skeletonDirectory.toList.isPrefixOf name.toList then
      some {
        name := String.ofList (name.toList.drop skeletonDirectory.length)
        origin := path installed target name
        text := some text }
    else none

/-- A tree with all stock files. -/
def install (installed : Path) (tree : FileTree) : FileTree :=
  let place (tree : FileTree) (target : Target) (file : String × String) : FileTree :=
    let path := path installed target file.1
    match (tree.makeDirectories path.parent).bind fun tree => tree.write path file.2.toUTF8 with
    | .ok tree => tree
    | .error _ => tree
  [Target.web, Target.ios].foldl
    (fun tree target => (filesOf target).foldl (fun tree file => place tree target file) tree) tree

end DesignGraph.Stock
