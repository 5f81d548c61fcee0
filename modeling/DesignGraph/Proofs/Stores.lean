import DesignGraph.Proofs.Links
import DesignGraph.Proofs.Template

/-!
# What is stored in a file tree

Every change of a file tree makes a directory where nothing is, or stores a file where no directory
is. `Stores` goes through such changes one by one and keeps a log of the files. Directories stay and
no link is made or lost (`Keeps`), so what a path leads to does not move. A place holds in the end
what was stored there last.
-/

namespace DesignGraph

/-- A file that was stored: the path it was written to, where that path led, and what it held. -/
structure Stored where
  path : Path
  place : List String
  content : ByteArray

namespace FileTree

variable {tree other after : FileTree} {log more : List Stored} {place here rest : List String}
  {path source : Path} {content : ByteArray}

/-! ## Trees that differ in files and new directories -/

/-- Directories, files and links stay what they are, and nothing becomes a link. -/
structure Keeps (tree other : FileTree) : Prop where
  workingDirectory_eq : other.workingDirectory = tree.workingDirectory
  directory : ∀ {place}, tree.entry? place = some .directory →
    other.entry? place = some .directory
  file : ∀ {place content}, tree.entry? place = some (.file content) →
    ∃ newer, other.entry? place = some (.file newer)
  link_iff : ∀ {place target}, other.entry? place = some (.link target) ↔
    tree.entry? place = some (.link target)

theorem Keeps.refl (tree : FileTree) : tree.Keeps tree :=
  ⟨rfl, id, fun found => ⟨_, found⟩, Iff.rfl⟩

theorem Keeps.trans (first : tree.Keeps other) (second : other.Keeps after) : tree.Keeps after where
  workingDirectory_eq := second.workingDirectory_eq.trans first.workingDirectory_eq
  directory found := second.directory (first.directory found)
  file found := by
    obtain ⟨newer, found⟩ := first.file found
    exact second.file found
  link_iff := second.link_iff.trans first.link_iff

theorem keeps_set_directory (nothing : tree.entry? place = none) :
    tree.Keeps (tree.set place .directory) := by
  have noDirectory : tree.entry? place ≠ some .directory := by simp [nothing]
  have below := ne_nil_of_ne_directory noDirectory
  refine ⟨rfl, ?_, ?_, ?_⟩
  · intro at_ found
    rw [entry_set tree below, found, ite_self]
  · intro at_ content found
    have apart : at_ ≠ place := by
      rintro rfl
      rw [nothing] at found
      cases found
    exact ⟨content, by rw [entry_set tree below, if_neg apart, found]⟩
  · intro at_ target
    rw [entry_set tree below]
    split_ifs with same
    · simp [same, nothing]
    · exact Iff.rfl

theorem keeps_set_file (noDirectory : tree.entry? place ≠ some .directory)
    (noLink : ∀ target, tree.entry? place ≠ some (.link target)) (content : ByteArray) :
    tree.Keeps (tree.set place (.file content)) := by
  have below := ne_nil_of_ne_directory noDirectory
  refine ⟨rfl, ?_, ?_, ?_⟩
  · intro at_ found
    have apart : at_ ≠ place := by
      rintro rfl
      exact noDirectory found
    rw [entry_set tree below, if_neg apart, found]
  · intro at_ older found
    rw [entry_set tree below]
    split_ifs
    · exact ⟨content, rfl⟩
    · exact ⟨older, found⟩
  · intro at_ target
    rw [entry_set tree below]
    split_ifs with same
    · simp [same, noLink]
    · exact Iff.rfl

/-- A lookup that ends goes the same way in a tree that has come after. -/
theorem Keeps.follow_eq (keeps : tree.Keeps other) {followLast : Bool} {links : Nat}
    (found : tree.follow followLast links here rest = .ok place) :
    other.follow followLast links here rest = .ok place := by
  fun_induction FileTree.follow tree followLast links here rest with
  | case1 => rw [follow, ← found]
  | case2 links here rest inside ih =>
    rw [follow_cons, keeps.directory inside]
    simpa using ih found
  | case3 links here rest inside _ ih =>
    rw [follow_cons, keeps.directory inside]
    simpa using ih found
  | case4 => cases found
  | case5 links here part rest inside moves sinks short next target linked last =>
    rw [follow_cons_name other _ _ _ (keeps.directory inside) moves sinks short,
      keeps.link_iff.mpr linked]
    simpa only [if_pos last] using found
  | case6 => cases found
  | case7 here part rest inside moves sinks short next target linked onwards links jump ih =>
    rw [follow_cons_name other _ _ _ (keeps.directory inside) moves sinks short,
      keeps.link_iff.mpr linked]
    simp only [if_neg onwards]
    exact ih found
  | case8 links here part rest inside moves sinks short next entry noLink present ih =>
    rw [follow_cons_name other _ _ _ (keeps.directory inside) moves sinks short]
    cases entry with
    | link target => exact (noLink target rfl).elim
    | directory =>
      rw [keeps.directory present]
      exact ih found
    | file content =>
      obtain ⟨newer, there⟩ := keeps.file present
      rw [there]
      exact ih found
  | case9 links here part rest inside moves sinks short next absent last =>
    rw [follow_cons_name other _ _ _ (keeps.directory inside) moves sinks short]
    rw [← Except.ok.inj found, List.isEmpty_iff.mp last]
    split
    · next target linked =>
      rw [keeps.link_iff, absent] at linked
      cases linked
    · rw [follow]
    · rfl
  | case10 | case11 | case12 => cases found

/-- What a path leads to does not move. -/
theorem Keeps.place_eq (keeps : tree.Keeps other) {followLast : Bool}
    (found : tree.place followLast path = .ok place) : other.place followLast path = .ok place := by
  unfold FileTree.place at found ⊢
  split_ifs at found ⊢ with malformed
  have same : other.absolute path = tree.absolute path := by
    simp only [FileTree.absolute, keeps.workingDirectory_eq]
  rw [same]
  exact keeps.follow_eq found

/-- A file is found again, though it may hold something else. -/
theorem Keeps.lookup_file (keeps : tree.Keeps other)
    (found : tree.lookup path = .ok (place, .file content)) :
    ∃ newer, other.lookup path = .ok (place, .file newer) := by
  obtain ⟨placed, present⟩ := lookup_eq_ok_iff.mp found
  obtain ⟨newer, there⟩ := keeps.file present
  exact ⟨newer, lookup_eq_ok_iff.mpr ⟨keeps.place_eq placed, there⟩⟩

/-! ## The log -/

/-- What changes the tree, change by change, with the files that are stored. -/
inductive Stores : FileTree → List Stored → FileTree → Prop
  | nil (tree : FileTree) : Stores tree [] tree
  | directory {tree after : FileTree} {place : List String} {log : List Stored}
      (nothing : FileTree.entry? tree place = none)
      (others : Stores (tree.set place .directory) log after) : Stores tree log after
  | file {tree after : FileTree} {path : Path} {place : List String} {content : ByteArray}
      {log : List Stored} (placed : tree.place true path = .ok place)
      (noDirectory : FileTree.entry? tree place ≠ some .directory)
      (others : Stores (tree.set place (.file content)) log after) :
      Stores tree (⟨path, place, content⟩ :: log) after

theorem Stores.append (first : tree.Stores log other) (second : other.Stores more after) :
    tree.Stores (log ++ more) after := by
  induction first with
  | nil => exact second
  | directory nothing _ ih => exact .directory nothing (ih second)
  | file placed noDirectory _ ih => exact .file placed noDirectory (ih second)

theorem Stores.keeps (stores : tree.Stores log after) : tree.Keeps after := by
  induction stores with
  | nil tree => exact .refl tree
  | directory nothing _ ih => exact (keeps_set_directory nothing).trans ih
  | file placed noDirectory _ ih =>
    have noLink := isLinkFree_of_place placed _ (List.prefix_refl _)
    exact (keeps_set_file noDirectory noLink _).trans ih

/-- A stored path goes on leading to its place. -/
theorem Stores.place_eq (stores : tree.Stores log after) {stored : Stored} (member : stored ∈ log) :
    after.place true stored.path = .ok stored.place := by
  induction stores with
  | nil => cases member
  | directory _ _ ih => exact ih member
  | @file tree after path place content log placed noDirectory others ih =>
    rcases List.mem_cons.mp member with rfl | later
    · have noLink := isLinkFree_of_place placed _ (List.prefix_refl _)
      exact ((keeps_set_file noDirectory noLink _).trans others.keeps).place_eq placed
    · exact ih later

/-- A path that led to a place before is stored there. -/
theorem Stores.eq_of_place (stores : tree.Stores log after) {stored : Stored}
    (member : stored ∈ log) (placed : tree.place true stored.path = .ok place) :
    stored.place = place :=
  Except.ok.inj ((stores.place_eq member).symm.trans (stores.keeps.place_eq placed))

/-- What was stored last at each place. -/
def lastStored (log : List Stored) : OrderedMap (List String) ByteArray :=
  .ofList (log.map fun stored => (stored.place, stored.content))

theorem lastStored_append (log more : List Stored) (place : List String) :
    (lastStored (log ++ more)).get? place =
      ((lastStored more).get? place).or ((lastStored log).get? place) := by
  simp only [lastStored, OrderedMap.get?_ofList, List.map_append, List.reverse_append,
    List.lookup_append]

theorem mem_of_lastStored (last : (lastStored log).get? place = some content) :
    ∃ stored ∈ log, stored.place = place ∧ stored.content = content := by
  obtain ⟨stored, member, same⟩ := List.mem_map.mp (OrderedMap.mem_of_get?_ofList last)
  exact ⟨stored, member, (Prod.mk.inj same).1, (Prod.mk.inj same).2⟩

theorem exists_lastStored {stored : Stored} (member : stored ∈ log) :
    ∃ content, (lastStored log).get? stored.place = some content := by
  have listed : (stored.place, stored.content) ∈
      log.map fun stored => (stored.place, stored.content) :=
    List.mem_map.mpr ⟨stored, member, rfl⟩
  exact Option.isSome_iff_exists.mp (OrderedMap.isSome_get?_ofList.mpr ⟨_, listed⟩)

/-- What is stored at a place that nothing is stored at after it is what is stored there last. -/
theorem lastStored_of_unmatched (front : List Stored) {stored : Stored} {back : List Stored}
    (unmatched : ∀ later ∈ back, later.place ≠ stored.place) :
    (lastStored (front ++ stored :: back)).get? stored.place = some stored.content := by
  have later : (lastStored back).get? stored.place = none := by
    rw [Option.eq_none_iff_forall_ne_some]
    intro content found
    obtain ⟨other, member, same, -⟩ := mem_of_lastStored found
    exact unmatched other member same
  have own : (lastStored [stored]).get? stored.place = some stored.content := by
    simp [lastStored, OrderedMap.ofList]
  rw [← List.singleton_append, lastStored_append, lastStored_append, later, own]
  rfl

/-- Where nothing was stored there are the files that were there before. -/
theorem Stores.content_iff (stores : tree.Stores log after)
    (untouched : ∀ stored ∈ log, stored.place ≠ place) :
    after.entry? place = some (.file content) ↔ tree.entry? place = some (.file content) := by
  induction stores with
  | nil => exact Iff.rfl
  | @directory tree after at_ log nothing _ ih =>
    have noDirectory : tree.entry? at_ ≠ some .directory := by simp [nothing]
    rw [ih untouched, entry_set _ (ne_nil_of_ne_directory noDirectory)]
    split_ifs with same
    · simp [same, nothing]
    · exact Iff.rfl
  | @file tree after path at_ new log placed noDirectory _ ih =>
    obtain ⟨apart, others⟩ := List.forall_mem_cons.mp untouched
    rw [ih others, entry_set _ (ne_nil_of_ne_directory noDirectory), if_neg (Ne.symm apart)]

/-- A file holds in the end what was stored at its place last. -/
theorem Stores.content_eq (stores : tree.Stores log after)
    (last : (lastStored log).get? place = some content) :
    after.entry? place = some (.file content) := by
  induction stores with
  | nil => cases last
  | directory _ _ ih => exact ih last
  | @file tree after path at_ new log placed noDirectory others ih =>
    rw [← List.singleton_append, lastStored_append] at last
    cases later : (lastStored log).get? place with
    | some newer =>
      rw [later] at last
      cases last
      exact ih later
    | none =>
      rw [later, Option.none_or] at last
      have untouched : ∀ stored ∈ log, stored.place ≠ place := by
        rintro stored member rfl
        obtain ⟨content, found⟩ := exists_lastStored member
        rw [later] at found
        cases found
      obtain ⟨stored, member, rfl, rfl⟩ := mem_of_lastStored last
      obtain rfl := List.mem_singleton.mp member
      have below := ne_nil_of_ne_directory noDirectory
      exact (others.content_iff untouched).mpr (by rw [entry_set _ below, if_pos rfl])

/-! ## Storing again -/

/-- The tree in which the files of a log have been put into their places one after the other. -/
def storeAll (tree : FileTree) (log : List Stored) : FileTree :=
  log.foldl (fun tree stored => tree.set stored.place (.file stored.content)) tree

theorem get?_storeAll (tree : FileTree) (log : List Stored) (place : List String) :
    (tree.storeAll log).entries.get? place =
      (((lastStored log).get? place).map Entry.file).or (tree.entries.get? place) := by
  induction log generalizing tree with
  | nil => rfl
  | cons stored log ih =>
    have onwards : tree.storeAll (stored :: log) =
        (tree.set stored.place (.file stored.content)).storeAll log := rfl
    have own : lastStored [stored] =
        OrderedMap.insert ∅ stored.place stored.content := rfl
    rw [onwards, ih, ← List.singleton_append, lastStored_append, own]
    cases (lastStored log).get? place with
    | some content => simp
    | none =>
      by_cases here : place = stored.place
      · simp [here, FileTree.set]
      · simp [FileTree.set, OrderedMap.get?_insert_of_ne _ _ here]

theorem workingDirectory_storeAll (tree : FileTree) (log : List Stored) :
    (tree.storeAll log).workingDirectory = tree.workingDirectory := by
  induction log generalizing tree with
  | nil => rfl
  | cons stored log ih => exact ih _

theorem keys_storeAll (present : ∀ stored ∈ log, stored.place ∈ tree.entries.keys) :
    (tree.storeAll log).entries.keys = tree.entries.keys := by
  induction log generalizing tree with
  | nil => rfl
  | cons stored log ih =>
    obtain ⟨here, others⟩ := List.forall_mem_cons.mp present
    have same : (tree.set stored.place (.file stored.content)).entries.keys = tree.entries.keys :=
      OrderedMap.keys_insert_of_mem _ here
    exact (ih fun other member => same ▸ others other member).trans same

/-- Storing once more what has been stored changes nothing. -/
theorem Stores.storeAll_eq (stores : tree.Stores log after) (distinct : after.entries.keys.Nodup) :
    after.storeAll log = after := by
  have found {place : List String} {content : ByteArray}
      (last : (lastStored log).get? place = some content) :
      after.entries.get? place = some (.file content) := by
    have there := stores.content_eq last
    have noDirectory : after.entry? place ≠ some .directory := by simp [there]
    have below := ne_nil_of_ne_directory noDirectory
    rwa [entry_eq_get? below] at there
  have keys : (after.storeAll log).entries.keys = after.entries.keys := by
    refine keys_storeAll fun stored member => ?_
    obtain ⟨content, last⟩ := exists_lastStored member
    exact OrderedMap.mem_keys_of_get? (found last)
  have entries : (after.storeAll log).entries = after.entries := by
    refine OrderedMap.eq_of_get? (keys ▸ distinct) keys fun place => ?_
    rw [get?_storeAll]
    cases last : (lastStored log).get? place with
    | none => rfl
    | some content => exact (found last).symm
  exact congrArg₂ FileTree.mk entries (workingDirectory_storeAll after log)

/-! ## The operations -/

theorem write_eq_ok_iff : tree.write path content = .ok other ↔
    ∃ place, tree.place true path = .ok place ∧ FileTree.entry? tree place ≠ some .directory ∧
      other = tree.set place (.file content) := by
  simp only [write, Answers.bind_eq_ok_iff]
  refine exists_congr fun place => and_congr_right fun _ => ?_
  split
  · next directory =>
    constructor
    · intro refused
      cases refused
    · intro accepted
      exact absurd directory accepted.1
  · next noDirectory =>
    constructor
    · rintro ⟨⟩
      exact ⟨noDirectory, rfl⟩
    · rintro ⟨-, rfl⟩
      rfl

theorem stores_of_write (written : tree.write path content = .ok other) :
    ∃ place, tree.Stores [⟨path, place, content⟩] other := by
  obtain ⟨place, placed, noDirectory, rfl⟩ := write_eq_ok_iff.mp written
  exact ⟨place, .file placed noDirectory (.nil _)⟩

theorem read_eq_ok_iff : tree.read path = .ok content ↔
    ∃ place, tree.lookup path = .ok (place, .file content) := by
  simp only [read, Answers.bind_eq_ok_iff]
  constructor
  · rintro ⟨⟨place, entry⟩, found, isFile⟩
    cases entry with
    | file content =>
      cases isFile
      exact ⟨place, found⟩
    | directory | link _ => cases isFile
  · rintro ⟨place, found⟩
    exact ⟨_, found, rfl⟩

/-- What was stored last at the place of a stored path is read there. -/
theorem Stores.read_of_lastStored (stores : tree.Stores log after) {stored : Stored}
    (member : stored ∈ log) (last : (lastStored log).get? stored.place = some content) :
    after.read stored.path = .ok content :=
  read_eq_ok_iff.mpr
    ⟨stored.place, lookup_eq_ok_iff.mpr ⟨stores.place_eq member, stores.content_eq last⟩⟩

/-- The file that is stored last holds what was stored. -/
theorem Stores.read_eq {stored : Stored} (stores : tree.Stores (log ++ [stored]) after) :
    after.read stored.path = .ok stored.content :=
  stores.read_of_lastStored (List.mem_append_right log (List.mem_singleton_self stored))
    (lastStored_of_unmatched log (by simp))

/-- A copy is what the source holds, written to the target. -/
theorem write_of_copy (copied : tree.copy source path = .ok other) :
    ∃ content, tree.read source = .ok content ∧ tree.write path content = .ok other := by
  simp only [copy, Answers.bind_eq_ok_iff] at copied
  obtain ⟨⟨place, entry⟩, found, copied⟩ := copied
  rw [Answers.unless_eq_ok_iff] at copied
  cases entry with
  | file content => exact ⟨content, read_eq_ok_iff.mpr ⟨place, found⟩, copied.2⟩
  | directory | link _ => cases copied.2

theorem stores_of_makeDirectory (made : tree.makeDirectory path = .ok other) :
    tree.Stores [] other := by
  simp only [makeDirectory, Answers.bind_eq_ok_iff] at made
  obtain ⟨place, -, made⟩ := made
  split at made
  · cases made
  · next nothing =>
    cases made
    exact .directory nothing (.nil _)

/-- The tree that is left when directories have been made, or some of them before a refusal. -/
def treeLeft : Except (Refusal × FileTree) FileTree → FileTree
  | .ok made => made
  | .error (_, left) => left

/-- What holds of a tree and goes on to hold whenever a directory is made holds of the tree that is
left. -/
theorem treeLeft_induction {motive : FileTree → Prop}
    (step : ∀ {tree made : FileTree} {path : Path}, motive tree →
      tree.makeDirectory path = .ok made → motive made)
    (start : motive tree) (path : Path) (count : Nat) :
    motive (treeLeft (tree.makeDirectoriesTo path count)) := by
  have ensured {tree : FileTree} (start : motive tree) (path : Path) :
      motive (treeLeft ((tree.ensureDirectory path).mapError (·, tree))) := by
    unfold ensureDirectory
    split
    · split_ifs
      · exact start
      · exact start
    · cases making : tree.makeDirectory path with
      | error refusal => exact start
      | ok made => exact step start making
  induction count with
  | zero => exact ensured start _
  | succ count ih =>
    simp only [makeDirectoriesTo]
    split
    · cases above : tree.makeDirectoriesTo path count with
      | error failure => rwa [above] at ih
      | ok between =>
        rw [above] at ih
        exact ensured ih _
    · split_ifs
      · exact start
      · exact start
    · next made => exact step start made

theorem stores_of_makeDirectoriesTo (tree : FileTree) (path : Path) (count : Nat) :
    tree.Stores [] (treeLeft (tree.makeDirectoriesTo path count)) :=
  treeLeft_induction (fun stores made => stores.append (stores_of_makeDirectory made))
    (.nil tree) path count

theorem stores_of_makeDirectories (made : tree.makeDirectories path = .ok other) :
    tree.Stores [] other := by
  have stores := stores_of_makeDirectoriesTo tree path path.parts.length
  rwa [makeDirectories_eq_ok_iff.mp made] at stores

end FileTree

/-! ## Steps on the disk -/

namespace Disk

variable {α β : Type} {allowed : Path → Prop}

/-- However the step ends, the files that it has stored were written to allowed paths. -/
def StoresOnly (allowed : Path → Prop) (step : Disk α) : Prop :=
  ∀ tree : FileTree, ∃ log : List Stored, tree.Stores log (step.run.run tree).2 ∧
    ∀ stored ∈ log, allowed stored.path

/-- A step that is refused leaves the tree as it is. -/
theorem storesOnly_change {step : FileTree → Except FileTree.Refusal FileTree}
    (each : ∀ tree other : FileTree, step tree = .ok other →
      ∃ log : List Stored, tree.Stores log other ∧ ∀ stored ∈ log, allowed stored.path) :
    StoresOnly allowed (change step) := by
  intro tree
  change ∃ log, tree.Stores log
    (StateT.run (ExceptT.run (refusable (step tree) >>= fun other => set other)) tree).2 ∧ _
  cases changed : step tree with
  | error refusal => exact ⟨[], .nil tree, by simp⟩
  | ok other => exact each tree other changed

theorem tree_of_makeDirectories (path : Path) (before : FileTree) :
    ((makeDirectories path).run.run before).2 =
      FileTree.treeLeft (before.makeDirectoriesTo path path.parts.length) := by
  rw [run_makeDirectories_eq]
  cases before.makeDirectoriesTo path path.parts.length <;> rfl

theorem storesOnly_makeDirectories (path : Path) : StoresOnly allowed (makeDirectories path) := by
  intro tree
  refine ⟨[], ?_, by simp⟩
  rw [tree_of_makeDirectories]
  exact FileTree.stores_of_makeDirectoriesTo tree path path.parts.length

theorem storesOnly_write {path : Path} (allow : allowed path) (content : ByteArray) :
    StoresOnly allowed (write path content) := by
  refine storesOnly_change fun tree other written => ?_
  obtain ⟨place, stores⟩ := FileTree.stores_of_write written
  exact ⟨_, stores, by simpa using allow⟩

theorem storesOnly_copy {source target : Path} (allow : allowed target) :
    StoresOnly allowed (copy source target) := by
  refine storesOnly_change fun tree other copied => ?_
  obtain ⟨content, -, written⟩ := FileTree.write_of_copy copied
  obtain ⟨place, stores⟩ := FileTree.stores_of_write written
  exact ⟨_, stores, by simpa using allow⟩

theorem StoresOnly.bind {step : Disk α} {next : α → Disk β} (head : StoresOnly allowed step)
    (tail : ∀ a, StoresOnly allowed (next a)) : StoresOnly allowed (step >>= next) := by
  intro tree
  obtain ⟨log, stores, allow⟩ := head tree
  rcases ending : step.run.run tree with ⟨fault | a, between⟩
  · rw [ending] at stores
    rw [run_bind_error ending]
    exact ⟨log, stores, allow⟩
  · rw [run_bind ending]
    rw [ending] at stores
    obtain ⟨more, others, allowMore⟩ := tail a between
    exact ⟨log ++ more, stores.append others, List.forall_mem_append.mpr ⟨allow, allowMore⟩⟩

end Disk

end DesignGraph
