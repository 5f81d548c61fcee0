import DesignGraph.OrderedMap
import DesignGraph.Path

/-!
# File trees

A file system as a value: directories, regular files and symbolic links under absolute paths.
Lookups follow links as an operating system does, with a limit on their number.  Every write
returns the changed tree or says why there is none; a failed write changes nothing.  Only where many
directories are made do those stay that were made before a refusal.

Permissions, times and special files are not represented.
-/

namespace DesignGraph

inductive FileTree.Entry
  | directory
  | file (content : ByteArray)
  | link (target : String)

/-- `workingDirectory` is where relative paths start. -/
structure FileTree where
  entries : OrderedMap (List String) FileTree.Entry := ⟨[]⟩
  workingDirectory : List String := []

namespace FileTree

inductive Refusal
  | missing
  | notDirectory
  | isDirectory
  | alreadyExists
  | sameFile
  | tooManyLinks
  | nameTooLong
  /-- A name holds the null character. -/
  | malformedName
  deriving Repr, DecidableEq

instance : Inhabited FileTree := ⟨⟨⟨[]⟩, []⟩⟩

/-- The number of links that one lookup may follow. -/
def linkLimit : Nat := 40

/-- The number of bytes that a name may have. -/
def nameLimit : Nat := 255

def entry? (tree : FileTree) (place : List String) : Option Entry :=
  if place.isEmpty then some .directory else tree.entries.get? place

def set (tree : FileTree) (place : List String) (entry : Entry) : FileTree :=
  { tree with entries := tree.entries.insert place entry }

/-- The number of pieces that the target of a link has. -/
def Entry.pieces : Entry → Nat
  | .link target => (Path.segments target).length
  | _ => 0

/-- The number of pieces that the targets of all links have together. -/
def linkPieces (tree : FileTree) : Nat :=
  tree.entries.entries.foldr (fun item others => item.2.pieces + others) 0

/-- No target has more pieces than all of them. -/
theorem length_segments_le {tree : FileTree} {place : List String} {target : String}
    (found : tree.entry? place = some (.link target)) :
    (Path.segments target).length ≤ tree.linkPieces := by
  unfold entry? at found
  split at found
  · cases found
  · obtain ⟨before, after, split, -⟩ := List.lookup_eq_some_iff.mp found
    rw [linkPieces, split]
    clear split
    induction before with
    | nil => exact Nat.le_add_right _ _
    | cons item _ ih => exact Nat.le_trans ih (Nat.le_add_left _ _)

/-- Follow the segments `rest` from the directory `here`.  The place found need not hold anything
if only its last segment is missing.  A link in the last segment is followed on demand. -/
def follow (tree : FileTree) (followLast : Bool) (links : Nat) (here : List String) :
    (rest : List String) → Except Refusal (List String)
  | [] => .ok here
  | part :: rest =>
      match tree.entry? here with
      | some .directory =>
          if part = "." then tree.follow followLast links here rest
          else if part = ".." then tree.follow followLast links here.dropLast rest
          else if nameLimit < part.utf8ByteSize then .error .nameTooLong
          else
            let next := here ++ [part]
            match _found : tree.entry? next with
            | some (.link target) =>
                if rest.isEmpty && !followLast then .ok next
                else match links with
                  | 0 => .error .tooManyLinks
                  | links + 1 =>
                      let path := Path.ofString target
                      tree.follow followLast links (if path.isAbsolute then [] else here)
                        (path.parts ++ rest)
            | some _ => tree.follow followLast links next rest
            | none => if rest.isEmpty then .ok next else .error .missing
      | some _ => .error .notDirectory
      | none => .error .missing
  termination_by rest => links * (tree.linkPieces + 1) + rest.length
  decreasing_by
    all_goals first
      | exact Nat.add_lt_add_left (Nat.lt_succ_self _) _
      | have fewer := Nat.le_trans (Path.length_parts_le target) (length_segments_le ‹_›)
        simp only [List.length_append, List.length_cons, Nat.succ_mul]
        omega

/-- The segments of a path from the top of the tree. -/
def absolute (tree : FileTree) (path : Path) : List String :=
  if path.isAbsolute then path.parts else tree.workingDirectory ++ path.parts

def place (tree : FileTree) (followLast : Bool) (path : Path) : Except Refusal (List String) :=
  if path.isMalformed then .error .malformedName
  else tree.follow followLast linkLimit [] (tree.absolute path)

/-- What a path leads to, with every link followed. -/
def lookup (tree : FileTree) (path : Path) : Except Refusal (List String × Entry) := do
  let place ← tree.place true path
  match tree.entry? place with
  | some entry => pure (place, entry)
  | none => throw .missing

def isPresent (tree : FileTree) (path : Path) : Bool := (tree.lookup path).isOk

def isFile (tree : FileTree) (path : Path) : Bool :=
  match tree.lookup path with
  | .ok (_, .file _) => true
  | _ => false

def isDirectory (tree : FileTree) (path : Path) : Bool :=
  match tree.lookup path with
  | .ok (_, .directory) => true
  | _ => false

def read (tree : FileTree) (path : Path) : Except Refusal ByteArray := do
  match ← tree.lookup path with
  | (_, .file content) => pure content
  | _ => throw .isDirectory

def write (tree : FileTree) (path : Path) (content : ByteArray) : Except Refusal FileTree := do
  let place ← tree.place true path
  match tree.entry? place with
  | some .directory => throw .isDirectory
  | _ => pure (tree.set place (.file content))

/-- Copy a regular file over another path. -/
def copy (tree : FileTree) (source target : Path) : Except Refusal FileTree := do
  let (from_, entry) ← tree.lookup source
  if (tree.place true target).toOption == some from_ then throw .sameFile
  match entry with
  | .file content => tree.write target content
  | _ => throw .isDirectory

/-- Make one directory, whose parent has to exist. -/
def makeDirectory (tree : FileTree) (path : Path) : Except Refusal FileTree := do
  let place ← tree.place false path
  match tree.entry? place with
  | some _ => throw .alreadyExists
  | none => pure (tree.set place .directory)

/-- A directory that already exists is no obstacle. -/
def ensureDirectory (tree : FileTree) (path : Path) : Except Refusal FileTree :=
  match tree.makeDirectory path with
  | .error refusal => if tree.isDirectory path then .ok tree else .error refusal
  | made => made

/-- Make the directory at so many leading segments of a path, and before it all that are missing
above it. A refusal comes with the tree as it was made until then. -/
def makeDirectoriesTo (path : Path) : Nat → FileTree → Except (Refusal × FileTree) FileTree
  | 0, tree => (tree.ensureDirectory { path with parts := [] }).mapError (·, tree)
  | count + 1, tree =>
      let here : Path := { path with parts := path.parts.take (count + 1) }
      match tree.makeDirectory here with
      | .error .missing => do
          let above ← makeDirectoriesTo path count tree
          (above.ensureDirectory here).mapError (·, above)
      | .error refusal => if tree.isDirectory here then .ok tree else .error (refusal, tree)
      | .ok made => .ok made

/-- Make a directory and all that are missing above it. -/
def makeDirectories (tree : FileTree) (path : Path) : Except Refusal FileTree :=
  (makeDirectoriesTo path path.parts.length tree).mapError Prod.fst

/-- Where segments lead with every link followed. A link that leads back to itself has no end: from
there the path is left as it is written. -/
inductive Reached
  | place (segments : List String)
  | circular (path : Path)
  deriving Repr, DecidableEq

/-- The number of places whose links are not being followed. -/
def placesLeft (tree : FileTree) (opened : List (List String)) : Nat :=
  (tree.entries.keys.filter fun key => !opened.contains key).length

theorem placesLeft_lt {tree : FileTree} {opened : List (List String)} {here : List String}
    {part : String} {entry : Entry} (found : tree.entry? (here ++ [part]) = some entry)
    (unopened : ¬ opened.contains (here ++ [part])) :
    tree.placesLeft ((here ++ [part]) :: opened) < tree.placesLeft opened := by
  unfold entry? at found
  rw [if_neg (by simp)] at found
  have listed : here ++ [part] ∈ tree.entries.keys := by
    obtain ⟨before, after, split, -⟩ := List.lookup_eq_some_iff.mp found
    simp [OrderedMap.keys, split]
  have fewer : tree.entries.keys.filter (fun key => !((here ++ [part]) :: opened).contains key) =
      (tree.entries.keys.filter fun key => !opened.contains key).filter
        fun key => key != here ++ [part] := by
    rw [List.filter_filter]
    congr 1
    funext key
    rw [Bool.eq_iff_iff]
    simp
  rw [placesLeft, placesLeft, fewer, List.length_filter_lt_length_iff_exists]
  exact ⟨here ++ [part], List.mem_filter.mpr ⟨listed, by simpa using unopened⟩, by simp⟩

/-- Follow every link along segments from the directory `here`, and apply every parent segment; what
does not exist counts as a directory without links. `opened` holds the places of the links that are
being followed. -/
def realFrom (tree : FileTree) (opened : List (List String)) (here : List String) :
    (rest : List String) → Reached
  | [] => .place here
  | part :: rest =>
      if part = "" || part = "." then tree.realFrom opened here rest
      else if part = ".." then tree.realFrom opened here.dropLast rest
      else
        match _found : tree.entry? (here ++ [part]) with
        | some (.link target) =>
            if _again : opened.contains (here ++ [part]) then
              .circular ((⟨"/", here ++ [part]⟩ : Path).joinText ("/".intercalate rest))
            else
              let start := if (Path.ofString target).isAbsolute then [] else here
              match tree.realFrom ((here ++ [part]) :: opened) start (Path.segments target) with
              | .place middle => tree.realFrom opened middle rest
              | .circular path => .circular (path.joinText ("/".intercalate rest))
        | _ => tree.realFrom opened (here ++ [part]) rest
  termination_by rest => tree.placesLeft opened * (tree.linkPieces + 1) + rest.length
  decreasing_by
    all_goals first
      | exact Nat.add_lt_add_left (Nat.lt_succ_self _) _
      | have fewer := placesLeft_lt ‹_› ‹_›
        have bounded := length_segments_le ‹_›
        have product := Nat.mul_le_mul_right (tree.linkPieces + 1) fewer
        rw [Nat.succ_mul] at product
        simp only [List.length_cons]
        omega

/-- The path with every link followed, as far as that has an end. -/
def realPath (tree : FileTree) (path : Path) : Path :=
  match tree.realFrom [] [] (tree.absolute path) with
  | .place segments => ⟨"/", segments⟩
  | .circular path => path.normal

/-- Order of relative paths: segment by segment. -/
def segmentsLE : List String → List String → Bool
  | [], _ => true
  | _ :: _, [] => false
  | a :: as, b :: bs => if a = b then segmentsLE as bs else decide (a < b)

/-- The regular files below a directory, as segments relative to it, in the order of their paths.
Links to files count; links to directories are not entered. -/
def filesBelow (tree : FileTree) (directory : Path) : List (List String) :=
  match tree.lookup directory with
  | .ok (place, .directory) =>
      let relative := tree.entries.keys.filterMap fun key =>
        if place.isPrefixOf key && place.length < key.length then some (key.drop place.length)
        else none
      (relative.filter fun parts => tree.isFile ⟨"/", place ++ parts⟩).mergeSort segmentsLE
  | _ => []

end FileTree

end DesignGraph
