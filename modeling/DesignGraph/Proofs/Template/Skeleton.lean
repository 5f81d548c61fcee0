import DesignGraph.Proofs.Places

/-!
# The files of a skeleton

A skeleton is a directory with regular files and further directories in it. Its files are listed in
the order of their paths (`mem_filesBelow_iff`, `pairwise_filesBelow`), so the list stays what it is
as long as the files stay (`filesBelow_eq`).
-/

namespace DesignGraph.FileTree

variable {tree other : FileTree} {root : Path} {place parts : List String}

/-! ## The order of paths -/

theorem segmentsLE_total (a b : List String) : (segmentsLE a b || segmentsLE b a) = true := by
  induction a generalizing b with
  | nil => rfl
  | cons part a ih =>
    cases b with
    | nil => rfl
    | cons next b =>
      by_cases same : part = next
      · subst same
        simpa [segmentsLE] using ih b
      · have ordered : part < next ∨ next < part := by
          by_contra neither
          obtain ⟨notLess, notMore⟩ := not_or.mp neither
          exact same (String.le_antisymm (String.not_lt.mp notMore) (String.not_lt.mp notLess))
        simpa [segmentsLE, same, Ne.symm same] using ordered

theorem segmentsLE_cons_iff {part next : String} {a b : List String} :
    segmentsLE (part :: a) (next :: b) = true ↔
      part < next ∨ part = next ∧ segmentsLE a b = true := by
  by_cases same : part = next
  · subst same
    simp [segmentsLE]
  · simp [segmentsLE, same]

theorem segmentsLE_trans (a b c : List String) (first : segmentsLE a b = true)
    (second : segmentsLE b c = true) : segmentsLE a c = true := by
  induction a generalizing b c with
  | nil => rfl
  | cons part a ih =>
    cases b with
    | nil => cases first
    | cons next b =>
      cases c with
      | nil => cases second
      | cons last c =>
        rw [segmentsLE_cons_iff] at first second ⊢
        rcases first with less | ⟨rfl, first⟩
        · rcases second with lessToo | ⟨rfl, -⟩
          · exact .inl (String.lt_trans less lessToo)
          · exact .inl less
        · rcases second with less | ⟨rfl, second⟩
          · exact .inl less
          · exact .inr ⟨rfl, ih _ _ first second⟩

theorem segmentsLE_antisymm {a b : List String} (first : segmentsLE a b = true)
    (second : segmentsLE b a = true) : a = b := by
  induction a generalizing b with
  | nil =>
    cases b with
    | nil => rfl
    | cons => cases second
  | cons part a ih =>
    cases b with
    | nil => cases first
    | cons next b =>
      rw [segmentsLE_cons_iff] at first second
      rcases first with less | ⟨rfl, first⟩
      · rcases second with more | ⟨rfl, -⟩
        · exact absurd more (String.lt_asymm less)
        · exact absurd less (String.lt_irrefl _)
      · rcases second with less | ⟨-, second⟩
        · exact absurd less (String.lt_irrefl _)
        · rw [ih first second]

/-- One path comes before another. -/
def Precedes (a b : List String) : Prop := segmentsLE a b = true ∧ a ≠ b

/-! ## Names -/

/-- No segment is a dot or two. -/
def IsDotless (place : List String) : Prop := ∀ part ∈ place, part ≠ "." ∧ part ≠ ".."

theorem isDotless_nil : IsDotless [] := List.forall_mem_nil _

/-- What holds of the entries of every file system: there is one at each place, and none is called
a dot or two. -/
structure IsProper (tree : FileTree) : Prop where
  distinct : tree.entries.keys.Nodup
  dotless : ∀ place ∈ tree.entries.keys, IsDotless place

theorem IsProper.set (proper : tree.IsProper) (dotless : IsDotless place) (entry : Entry) :
    (tree.set place entry).IsProper := by
  have keys := OrderedMap.keys_insert tree.entries place entry
  by_cases present : place ∈ tree.entries.keys
  · have same : (tree.set place entry).entries.keys = tree.entries.keys :=
      OrderedMap.keys_insert_of_mem entry present
    exact ⟨same ▸ proper.distinct, same ▸ proper.dotless⟩
  · have more : (tree.set place entry).entries.keys = tree.entries.keys ++ [place] :=
      OrderedMap.keys_insert_of_not_mem entry present
    constructor
    · rw [more]
      exact proper.distinct.append (List.nodup_singleton place) (by simpa using present)
    · rw [more]
      exact List.forall_mem_append.mpr ⟨proper.dotless, by simpa using dotless⟩

/-- A lookup leads to no name that is a dot or two. -/
theorem isDotless_of_follow {followLast : Bool} {links : Nat} {here rest : List String}
    (dotless : IsDotless here)
    (found : tree.follow followLast links here rest = .ok place) : IsDotless place := by
  have next {here : List String} {part : String} (dotless : IsDotless here) (moves : part ≠ ".")
      (sinks : part ≠ "..") : IsDotless (here ++ [part]) :=
    List.forall_mem_append.mpr ⟨dotless, by simpa using ⟨moves, sinks⟩⟩
  fun_induction FileTree.follow tree followLast links here rest with
  | case1 =>
    rw [← Except.ok.inj found]
    exact dotless
  | case2 _ _ _ _ ih => exact ih dotless found
  | case3 _ _ _ _ _ ih =>
    exact ih (fun part member => dotless part (List.dropLast_subset _ member)) found
  | case4 | case6 | case10 | case11 | case12 => cases found
  | case5 _ _ _ _ _ moves sinks | case9 _ _ _ _ _ moves sinks =>
    rw [← Except.ok.inj found]
    exact next dotless moves sinks
  | case7 here _ _ _ _ _ _ _ target _ _ _ path ih =>
    refine ih ?_ found
    split
    · exact isDotless_nil
    · exact dotless
  | case8 _ _ _ _ _ moves sinks _ _ _ _ _ ih => exact ih (next dotless moves sinks) found

theorem isDotless_of_place {followLast : Bool} {path : Path}
    (placed : tree.place followLast path = .ok place) : IsDotless place := by
  unfold FileTree.place at placed
  split_ifs at placed
  exact isDotless_of_follow isDotless_nil placed

theorem IsProper.makeDirectory (proper : tree.IsProper) {path : Path}
    (made : tree.makeDirectory path = .ok other) : other.IsProper := by
  obtain ⟨place, placed, made⟩ := Answers.bind_eq_ok_iff.mp made
  split at made
  · cases made
  · cases made
    exact proper.set (isDotless_of_place placed) .directory

theorem IsProper.write (proper : tree.IsProper) {path : Path} {content : ByteArray}
    (written : tree.write path content = .ok other) : other.IsProper := by
  obtain ⟨place, placed, -, rfl⟩ := write_eq_ok_iff.mp written
  exact proper.set (isDotless_of_place placed) _

theorem IsProper.makeDirectoriesTo (proper : tree.IsProper) (path : Path) (count : Nat) :
    (treeLeft (tree.makeDirectoriesTo path count)).IsProper :=
  treeLeft_induction (fun proper made => proper.makeDirectory made) proper path count

/-! ## Skeletons -/

/-- The directory at a place is found under a path, holds regular files and further directories
only, and each file in it is found under the path of its place. -/
structure IsSkeleton (tree : FileTree) (root : Path) (place : List String) : Prop where
  proper : tree.IsProper
  found : tree.lookup root = .ok (place, .directory)
  noLink : ∀ parts target, tree.entry? (place ++ parts) ≠ some (.link target)
  straight : ∀ parts content, tree.entry? (place ++ parts) = some (.file content) →
    tree.isStraight ⟨"/", place ++ parts⟩ = true

namespace IsSkeleton

variable (skeleton : tree.IsSkeleton root place)

include skeleton

theorem isLinkFree (parts : List String) : tree.IsLinkFree (place ++ parts) := by
  intro front top
  rcases List.prefix_or_prefix_of_prefix top (List.prefix_append place parts) with above | below
  · exact isLinkFree_of_place (lookup_eq_ok_iff.mp skeleton.found).1 front above
  · obtain ⟨back, rfl⟩ := below
    exact skeleton.noLink back

theorem ne_nil {content : ByteArray}
    (isFile : tree.entry? (place ++ parts) = some (.file content)) :
    parts ≠ [] := by
  rintro rfl
  rw [List.append_nil, (lookup_eq_ok_iff.mp skeleton.found).2] at isFile
  cases isFile

/-- What is listed is found at a place in the directory. -/
theorem mem_filesBelow : parts ∈ tree.filesBelow root ↔
    place ++ parts ∈ tree.entries.keys ∧ parts ≠ [] ∧
      tree.isFile ⟨"/", place ++ parts⟩ = true := by
  simp only [filesBelow, skeleton.found, List.mem_mergeSort, List.mem_filter, List.mem_filterMap,
    ← and_assoc]
  refine and_congr_left fun _ => ?_
  constructor
  · rintro ⟨key, listed, found⟩
    rw [Option.ite_none_right_eq_some, Bool.and_eq_true, decide_eq_true_eq,
      List.isPrefixOf_iff_prefix] at found
    obtain ⟨⟨⟨back, rfl⟩, longer⟩, same⟩ := found
    rw [List.drop_left, Option.some.injEq] at same
    subst same
    exact ⟨listed, List.length_pos_iff.mp (by simpa using longer)⟩
  · rintro ⟨listed, given⟩
    have positive := List.length_pos_iff.mpr given
    refine ⟨_, listed, ?_⟩
    rw [if_pos (by simpa using positive), List.drop_left]

/-- The files that are listed are the regular files in the directory. -/
theorem mem_filesBelow_iff : parts ∈ tree.filesBelow root ↔
    ∃ content, tree.entry? (place ++ parts) = some (.file content) := by
  rw [skeleton.mem_filesBelow]
  constructor
  · rintro ⟨listed, -, isFile⟩
    obtain ⟨found, content, there⟩ := isFile_iff.mp isFile
    obtain ⟨-, reached, present⟩ := follow_of_lookup there
    -- Neither a link nor a dotted name leads away from the place.
    have free : tree.IsLinkFree ([] ++ (place ++ parts)) := skeleton.isLinkFree parts
    have same := follow_eq_append (skeleton.proper.dotless _ listed) free reached
    rw [same] at present
    exact ⟨content, present⟩
  · rintro ⟨content, isFile⟩
    have below : place ++ parts ≠ [] := by simp [skeleton.ne_nil isFile]
    have straight := skeleton.straight parts content isFile
    have listed : place ++ parts ∈ tree.entries.keys :=
      OrderedMap.mem_keys_of_get? ((entry_eq_get? below).symm.trans isFile)
    exact ⟨listed, skeleton.ne_nil isFile,
      isFile_iff.mpr ⟨_, content, lookup_of_isStraight straight isFile⟩⟩

/-- Every file is listed once, in the order of the paths. -/
theorem pairwise_filesBelow : (tree.filesBelow root).Pairwise Precedes := by
  have sorted : (tree.filesBelow root).Pairwise fun a b => segmentsLE a b = true := by
    simp only [filesBelow, skeleton.found]
    exact List.pairwise_mergeSort segmentsLE_trans segmentsLE_total _
  have distinct : (tree.filesBelow root).Nodup := by
    simp only [filesBelow, skeleton.found]
    rw [(List.mergeSort_perm _ _).nodup_iff]
    refine List.Nodup.filter _ (List.Nodup.filterMap ?_ skeleton.proper.distinct)
    intro key other parts first second
    simp only [Option.mem_def, Option.ite_none_right_eq_some, Bool.and_eq_true, decide_eq_true_eq,
      List.isPrefixOf_iff_prefix, Option.some.injEq] at first second
    obtain ⟨⟨⟨back, rfl⟩, -⟩, rfl⟩ := first
    obtain ⟨⟨⟨back', rfl⟩, -⟩, same⟩ := second
    rw [List.drop_left, List.drop_left] at same
    rw [same]
  exact sorted.and distinct

/-- The list is told by the files. -/
theorem filesBelow_eq {listing : List (List String)} (sorted : listing.Pairwise Precedes)
    (listed : ∀ parts, parts ∈ listing ↔
      ∃ content, tree.entry? (place ++ parts) = some (.file content)) :
    tree.filesBelow root = listing := by
  have own := skeleton.pairwise_filesBelow
  have distinct : (tree.filesBelow root).Nodup := own.imp And.right
  refine List.Perm.eq_of_pairwise (fun a b _ _ first second => ?_) own sorted
    ((List.perm_ext_iff_of_nodup distinct (sorted.imp And.right)).mpr fun parts => ?_)
  · exact segmentsLE_antisymm first.1 second.1
  · rw [skeleton.mem_filesBelow_iff, listed]

/-- A file of the skeleton is found under the path of the directory as well. -/
theorem lookup_origin {content : ByteArray}
    (isFile : tree.entry? (place ++ parts) = some (.file content)) :
    tree.lookup { root with parts := root.parts ++ parts } =
      .ok (place ++ parts, .file content) := by
  obtain ⟨wellFormed, reached, -⟩ := follow_of_lookup skeleton.found
  have straight := skeleton.straight parts content isFile
  simp only [isStraight, Bool.and_eq_true, Bool.not_eq_true', Path.isMalformed, List.any_append,
    Bool.or_eq_false_iff] at straight
  obtain ⟨⟨-, -, plain⟩, straight⟩ := straight
  have wellFormedToo :
      Path.isMalformed { root with parts := root.parts ++ parts } = false := by
    simp only [Path.isMalformed, List.any_append, Bool.or_eq_false_iff]
    exact ⟨wellFormed, plain⟩
  have onwards : tree.absolute { root with parts := root.parts ++ parts } =
      tree.absolute root ++ parts := by
    rw [absolute_eq_append, absolute_eq_append, List.append_assoc]
    rfl
  refine lookup_eq_ok_iff.mpr ⟨?_, isFile⟩
  rw [FileTree.place, wellFormedToo, onwards]
  exact follow_append reached (leadsStraight_of_append straight)

end IsSkeleton

/-! ## What happens beside a skeleton -/

/-- What has become of a tree: nothing at or below a place has been written. -/
structure Spares (tree : FileTree) (place : List String) (other : FileTree) : Prop where
  keeps : tree.Keeps other
  proper : other.IsProper
  content_iff : ∀ {parts content}, other.entry? (place ++ parts) = some (.file content) ↔
    tree.entry? (place ++ parts) = some (.file content)

theorem Spares.refl (proper : tree.IsProper) (place : List String) : tree.Spares place tree :=
  ⟨.refl tree, proper, Iff.rfl⟩

/-- Files that are stored elsewhere spare the place. -/
theorem Spares.stores (spares : tree.Spares place other) {after : FileTree} {log : List Stored}
    (stores : other.Stores log after) (proper : after.IsProper)
    (apart : ∀ stored ∈ log, ¬ place <+: stored.place) : tree.Spares place after where
  keeps := spares.keeps.trans stores.keeps
  proper := proper
  content_iff := by
    intro parts content
    rw [stores.content_iff fun stored member same => ?_, spares.content_iff]
    exact apart stored member (same ▸ List.prefix_append place parts)

/-- What is missing was missing before. -/
theorem Keeps.absent (keeps : tree.Keeps other) (absent : other.entry? place = none) :
    tree.entry? place = none := by
  cases present : tree.entry? place with
  | none => rfl
  | some entry =>
    cases entry with
    | directory =>
      rw [keeps.directory present] at absent
      cases absent
    | file content =>
      obtain ⟨newer, there⟩ := keeps.file present
      rw [there] at absent
      cases absent
    | link target =>
      rw [keeps.link_iff.mpr present] at absent
      cases absent

/-- A way that is straight stays so: no link comes to stand on it. -/
theorem Keeps.leadsStraight (keeps : tree.Keeps other) {here rest : List String}
    (straight : tree.leadsStraight here rest = true) : other.leadsStraight here rest = true := by
  induction rest generalizing here with
  | nil => rfl
  | cons part rest ih =>
    obtain ⟨inside, named, noLink, lastIfAbsent, onwards⟩ :=
      FileTree.leadsStraight_cons_iff.mp straight
    exact FileTree.leadsStraight_cons_iff.mpr ⟨keeps.directory inside, named,
      fun target linked => noLink target (keeps.link_iff.mp linked),
      fun absent => lastIfAbsent (keeps.absent absent), ih onwards⟩

theorem Keeps.isStraight (keeps : tree.Keeps other) {path : Path}
    (straight : tree.isStraight path = true) : other.isStraight path = true := by
  simp only [FileTree.isStraight, Bool.and_eq_true] at straight ⊢
  exact ⟨straight.1, keeps.leadsStraight straight.2⟩

/-- A skeleton that is spared is a skeleton still. -/
theorem IsSkeleton.later (skeleton : tree.IsSkeleton root place)
    (spares : tree.Spares place other) :
    other.IsSkeleton root place where
  proper := spares.proper
  found := by
    obtain ⟨placed, directory⟩ := lookup_eq_ok_iff.mp skeleton.found
    exact lookup_eq_ok_iff.mpr ⟨spares.keeps.place_eq placed, spares.keeps.directory directory⟩
  noLink parts target linked := skeleton.noLink parts target (spares.keeps.link_iff.mp linked)
  straight parts content isFile :=
    spares.keeps.isStraight (skeleton.straight parts content (spares.content_iff.mp isFile))

theorem IsSkeleton.filesBelow_later (skeleton : tree.IsSkeleton root place)
    (spares : tree.Spares place other) : other.filesBelow root = tree.filesBelow root :=
  (skeleton.later spares).filesBelow_eq skeleton.pairwise_filesBelow fun parts => by
    rw [skeleton.mem_filesBelow_iff]
    exact exists_congr fun content => spares.content_iff.symm

end DesignGraph.FileTree
