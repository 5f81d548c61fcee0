import DesignGraph.Proofs.Compile.Plan
import DesignGraph.Proofs.FileTree

/-!
# Trees with room

Whether a file tree admits the jobs of a package can be read off the tree as it is before them, if
its directories are there and no link is in the way: what is written on the way may have any
content, but it takes the place of a file or of nothing. For this to be evaluated, the jobs are told
with the names of the files that the skeleton leaves (`plainJobs`).
-/

namespace DesignGraph.FileTree

variable {tree other : FileTree} {written : List (List String)} {path : Path}

/-- The other tree differs in files that have been written, each in the place of a file or of
nothing. -/
structure Overwrites (tree other : FileTree) (written : List (List String)) : Prop where
  same : ∀ place, place ∉ written → other.entry? place = tree.entry? place
  wasNoDirectory : ∀ place ∈ written, tree.entry? place ≠ some .directory
  isFile : ∀ place ∈ written, ∃ content, other.entry? place = some (.file content)

theorem Overwrites.refl (tree : FileTree) : tree.Overwrites tree [] :=
  ⟨fun _ _ => rfl, by simp, by simp⟩

theorem Overwrites.directory (newer : tree.Overwrites other written) {place : List String}
    (found : tree.entry? place = some .directory) : other.entry? place = some .directory := by
  have unwritten : place ∉ written := fun member => newer.wasNoDirectory place member found
  rw [newer.same place unwritten, found]

theorem Overwrites.set (newer : tree.Overwrites other written) {place : List String}
    (noDirectory : tree.entry? place ≠ some .directory) (content : ByteArray) :
    tree.Overwrites (other.set place (.file content)) (place :: written) := by
  have below := ne_nil_of_ne_directory noDirectory
  refine ⟨?_, ?_, ?_⟩
  · intro at_ unwritten
    obtain ⟨different, earlier⟩ := not_or.mp (mt List.mem_cons.mpr unwritten)
    rw [entry_set other below, if_neg different, newer.same at_ earlier]
  · intro at_ member
    rcases List.mem_cons.mp member with rfl | earlier
    · exact noDirectory
    · exact newer.wasNoDirectory at_ earlier
  · intro at_ member
    rw [entry_set other below]
    by_cases same : at_ = place
    · exact ⟨content, if_pos same⟩
    · rw [if_neg same]
      exact newer.isFile at_ ((List.mem_cons.mp member).resolve_left same)

theorem Overwrites.leadsStraight (newer : tree.Overwrites other written) {here rest : List String}
    (straight : tree.leadsStraight here rest = true) :
    other.leadsStraight here rest = true := by
  induction rest generalizing here with
  | nil => rfl
  | cons part rest ih =>
    obtain ⟨inside, named, noLink, lastIfAbsent, onwards⟩ :=
      FileTree.leadsStraight_cons_iff.mp straight
    rw [FileTree.leadsStraight_cons_iff]
    by_cases member : here ++ [part] ∈ written
    · obtain ⟨content, found⟩ := newer.isFile _ member
      exact ⟨newer.directory inside, named, by simp [found], by simp [found], ih onwards⟩
    · rw [newer.same _ member]
      exact ⟨newer.directory inside, named, noLink, lastIfAbsent, ih onwards⟩

theorem Overwrites.isStraight (newer : tree.Overwrites other written)
    (straight : tree.isStraight path = true) : other.isStraight path = true := by
  simp only [FileTree.isStraight, Bool.and_eq_true] at straight ⊢
  exact ⟨straight.1, newer.leadsStraight straight.2⟩

theorem Overwrites.noDirectory (newer : tree.Overwrites other written) {place : List String}
    (free : tree.entry? place ≠ some .directory) : other.entry? place ≠ some .directory := by
  by_cases member : place ∈ written
  · obtain ⟨content, found⟩ := newer.isFile place member
    simp [found]
  · rwa [newer.same place member]

/-- Whether the place is that of a directory. -/
def holdsDirectory (tree : FileTree) (place : List String) : Bool :=
  match tree.entry? place with
  | some .directory => true
  | _ => false

/-- The content of the file at a place. -/
def content? (tree : FileTree) (place : List String) : Option ByteArray :=
  match tree.entry? place with
  | some (.file content) => some content
  | _ => none

theorem holdsDirectory_iff {place : List String} :
    tree.holdsDirectory place = true ↔ tree.entry? place = some .directory := by
  unfold holdsDirectory
  split <;> simp_all

theorem holdsDirectory_eq_false {place : List String} :
    tree.holdsDirectory place = false ↔ tree.entry? place ≠ some .directory := by
  rw [ne_eq, ← holdsDirectory_iff, Bool.not_eq_true]

theorem content?_eq_some {place : List String} {content : ByteArray} :
    tree.content? place = some content ↔ tree.entry? place = some (.file content) := by
  unfold content?
  split <;> simp_all

/-- Whether the jobs can be done in this order once files at some places have been written. All
paths lead straight to their places, directories are there already, and nothing that has been
written is read. -/
def takes (tree : FileTree) (written : List (List String)) : List DiskJob → Bool
  | [] => true
  | .directories path :: rest =>
      tree.isStraight path && tree.holdsDirectory path.parts && tree.takes written rest
  | .write path :: rest =>
      tree.isStraight path && !tree.holdsDirectory path.parts &&
        tree.takes (path.parts :: written) rest
  | .copy source target :: rest =>
      tree.isStraight source && !written.contains source.parts &&
        (tree.content? source.parts).isSome && tree.isStraight target &&
        !tree.holdsDirectory target.parts && source.parts != target.parts &&
        tree.takes (target.parts :: written) rest
  | .read path :: rest =>
      tree.isStraight path && !written.contains path.parts &&
        ((tree.content? path.parts).bind String.fromUTF8?).isSome && tree.takes written rest

theorem Overwrites.admits (newer : tree.Overwrites other written) {jobs : List DiskJob}
    (taken : tree.takes written jobs = true) : other.Admits jobs := by
  induction jobs generalizing other written with
  | nil => trivial
  | cons job rest ih =>
    cases job with
    | directories path =>
      simp only [takes, Bool.and_eq_true] at taken
      obtain ⟨⟨straight, directory⟩, later⟩ := taken
      have present := newer.directory (holdsDirectory_iff.mp directory)
      have made := makeDirectories_of_isStraight (newer.isStraight straight) present
      exact ⟨other, made, ih newer later⟩
    | write path =>
      simp only [takes, Bool.and_eq_true, Bool.not_eq_true'] at taken
      obtain ⟨⟨straight, free⟩, later⟩ := taken
      have noDirectory := holdsDirectory_eq_false.mp free
      intro content
      exact ⟨_, write_of_isStraight (newer.isStraight straight) (newer.noDirectory noDirectory)
        content, ih (newer.set noDirectory content) later⟩
    | copy source target =>
      simp only [takes, Bool.and_eq_true, Bool.not_eq_true', bne_iff_ne] at taken
      obtain ⟨⟨⟨⟨⟨⟨fromHere, unwritten⟩, isFile⟩, straight⟩, free⟩, apart⟩, later⟩ := taken
      obtain ⟨content, found⟩ := Option.isSome_iff_exists.mp isFile
      have noDirectory := holdsDirectory_eq_false.mp free
      have there : other.entry? source.parts = some (.file content) := by
        rw [newer.same _ (by simpa using unwritten)]
        exact content?_eq_some.mp found
      refine ⟨_, ?_, ih (newer.set noDirectory content) later⟩
      have elsewhere : ((other.place true target).toOption == some source.parts) = false := by
        rw [place_of_isStraight (newer.isStraight straight)]
        simpa [Except.toOption] using Ne.symm apart
      simp only [copy, lookup_of_isStraight (newer.isStraight fromHere) there, bind, Except.bind,
        elsewhere, Bool.false_eq_true, if_false]
      exact write_of_isStraight (newer.isStraight straight) (newer.noDirectory noDirectory) content
    | read path =>
      simp only [takes, Bool.and_eq_true, Bool.not_eq_true'] at taken
      obtain ⟨⟨⟨straight, unwritten⟩, readable⟩, later⟩ := taken
      obtain ⟨text, decoded⟩ := Option.isSome_iff_exists.mp readable
      obtain ⟨content, found, isText⟩ := Option.bind_eq_some_iff.mp decoded
      have there : other.entry? path.parts = some (.file content) := by
        rw [newer.same _ (by simpa using unwritten)]
        exact content?_eq_some.mp found
      refine ⟨⟨Compilation.asRead text, ?_⟩, ih newer later⟩
      simp only [Compilation.readFile, read_of_isStraight (newer.isStraight straight) there, isText]

theorem admits_of_takes {jobs : List DiskJob} (taken : tree.takes [] jobs = true) :
    tree.Admits jobs :=
  (Overwrites.refl tree).admits taken

end DesignGraph.FileTree

namespace DesignGraph.Compilation

open Template (Piece)

variable {setup : Setup} {output : Output} {tree : FileTree}

/-- The names that the files of a skeleton have in a package. -/
def skeletonFiles : Target → List String
  | .web => ["README.md", "index.d.ts", "index.js", "package.json"]
  | .ios => ["Package.swift"]

/-- The jobs of a package, those of its skeleton by the names of its files. -/
def plainJobs (setup : Setup) (output : Output) : List DiskJob :=
  staticJobs setup output ++
    ((runtimeFiles setup ++ boundFiles output.components).map .read ++
      (.directories setup.sdkRoot :: (skeletonFiles setup.target).flatMap fun name =>
        [.directories setup.sdkRoot, .write (setup.sdkRoot.joinText name)]))

theorem names_of_skeleton (installed : Path) (target : Target) :
    (Stock.skeleton installed target).map Piece.name =
      (skeletonFiles target).map (· ++ Template.suffix) := by
  cases target with
  | web => simp [Stock.skeleton_web, Stock.manifestPiece, skeletonFiles, Template.suffix]
  | ios => simp [Stock.skeleton_ios, skeletonFiles, Template.suffix]

theorem plain_of_skeletonFiles (target : Target) : ∀ name ∈ skeletonFiles target,
    Path.ofString name = ⟨"", [name]⟩ ∧
      Path.ofString (name ++ Template.suffix) = ⟨"", [name ++ Template.suffix]⟩ ∧
      (⟨"", [name ++ Template.suffix]⟩ : Path).withoutSuffix = ⟨"", [name]⟩ := by
  cases target <;> decide +kernel

/-- The template of a file lies where the file is written, under its name with a suffix. -/
theorem withoutSuffix_of_skeletonFiles {target : Target} {name : String}
    (listed : name ∈ skeletonFiles target) (root : Path) :
    (root.joinText (name ++ Template.suffix)).parent = root ∧
      (root.joinText (name ++ Template.suffix)).withoutSuffix = root.joinText name := by
  obtain ⟨filled, named, stem⟩ := plain_of_skeletonFiles target name listed
  rw [Path.joinText, Path.joinText, named, filled]
  constructor
  · simp [Path.join, Path.isAbsolute, Path.parent]
  · simpa [Path.join, Path.isAbsolute, Path.withoutSuffix, Path.name] using stem

theorem jobs_of_skeleton (installed root : Path) (target : Target) :
    (Stock.skeleton installed target).flatMap (Piece.jobs root) =
      (skeletonFiles target).flatMap fun name =>
        [.directories root, .write (root.joinText name)] := by
  -- Neither where a piece comes from nor its text has a part in its jobs.
  have byName : (Stock.skeleton installed target).flatMap (Piece.jobs root) =
      ((Stock.skeleton installed target).map Piece.name).flatMap fun name =>
        Piece.jobs root ⟨name, {}, none⟩ := by
    rw [List.flatMap_map]
    rfl
  rw [byName, names_of_skeleton, List.flatMap_map]
  refine List.flatMap_congr fun name listed => ?_
  obtain ⟨above, written⟩ := withoutSuffix_of_skeletonFiles listed root
  rw [Piece.jobs, above, written]

theorem packageJobs_eq_plainJobs : packageJobs setup output = plainJobs setup output := by
  rw [packageJobs, plainJobs, jobs_of_skeleton]

theorem admits_of_takes_plain (taken : tree.takes [] (plainJobs setup output) = true) :
    tree.Admits (packageJobs setup output) :=
  packageJobs_eq_plainJobs ▸ FileTree.admits_of_takes taken

end DesignGraph.Compilation
