import DesignGraph.CommandLine

/-!
# The program

The command line with the file system behind it.  The working directory and the directory of the
project are read into a tree, the command runs on the tree, and what it has changed is written back.
Nothing else is seen.  External commands are not run; they count as not found.
-/

namespace DesignGraph.Main

/-- Where the stock files stand in the tree; they are never written to the file system. -/
def stockDirectory : Path := Path.ofString "/usr/share/tessera"

def host : CommandLine.Host := ⟨stockDirectory, "unknown", .error "no address is known"⟩

def textOf (place : List String) : String := "/" ++ "/".intercalate place

/-- What lies below a directory.  A link stands for the path that it leads to. -/
partial def below (place : List String) : IO (List (List String × FileTree.Entry)) := do
  let found ← (← IO.FS.realPath (textOf place)).readDir
  let entries ← found.toList.mapM fun entry => do
    let here := place ++ [entry.fileName]
    let real ← IO.FS.realPath (textOf here)
    if real.toString ≠ textOf here then pure [(here, FileTree.Entry.link real.toString)]
    else if ← real.isDir then pure ((here, .directory) :: (← below here))
    else pure [(here, .file (← IO.FS.readBinFile (textOf here)))]
  pure entries.flatten

/-- The real path of the directory that a path names, or that holds the file it names. -/
def directoryOf (name : String) : IO (List String) := do
  let real ← IO.FS.realPath name
  let path := Path.ofString real.toString
  pure (if ← real.isDir then path.parts else path.parts.dropLast)

/-- A place and all places above it. -/
def upperPlaces (place : List String) : List (List String) :=
  (List.range place.length).map fun n => place.take (n + 1)

/-- A tree of the given directories, with the stock files. -/
def load (working : List String) (directories : List (List String)) : IO FileTree := do
  let tree : FileTree := Stock.install stockDirectory ⟨⟨[]⟩, working⟩
  let upper := (directories.flatMap upperPlaces).eraseDups
  let inner := (← directories.mapM below).flatten.filter fun entry => !upper.contains entry.1
  pure { tree with entries :=
    ⟨tree.entries.entries ++ upper.map (·, .directory) ++ inner⟩ }

def store (place : List String) : FileTree.Entry → IO Unit
  | .directory => IO.FS.createDirAll (textOf place)
  | .file content => IO.FS.writeBinFile (textOf place) content
  | .link _ => pure ()

def isSame : FileTree.Entry → FileTree.Entry → Bool
  | .directory, .directory => true
  | .file content, .file old => content == old
  | .link target, .link old => target == old
  | _, _ => false

/-- Write what has changed.  A tree only grows, so the places of the old one lead those of the
new one. -/
def save (before after : FileTree) : IO Unit := do
  let old := before.entries.entries
  for ((place, entry), (_, was)) in after.entries.entries.zip old do
    if !isSame entry was then store place entry
  for (place, entry) in after.entries.entries.drop old.length do store place entry

end DesignGraph.Main

open DesignGraph in
def main (args : List String) : IO UInt32 := do
  let working ← Main.directoryOf "."
  let project ← match CommandLine.parse args with
    | some (.compile project _ _) => Main.directoryOf project
    | _ => pure working
  let tree ← Main.load working
    (if working.isPrefixOf project then [working] else [working, project])
  let (outcome, world) := CommandLine.run Main.host { tree := tree } args
  Main.save tree world.tree
  IO.print outcome.output
  if outcome.isMisused then IO.eprint CommandLine.usageText
  match outcome.fault with
  | some fault => IO.eprintln ("Error: " ++ fault.message)
  | none => pure ()
  pure outcome.exitCode.toUInt32
