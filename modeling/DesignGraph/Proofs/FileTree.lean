import DesignGraph.Disk
import DesignGraph.Proofs.Answers
import DesignGraph.Proofs.OrderedMap

/-!
# Paths without links

A lookup goes from segment to segment and follows the links that it finds. Where it finds none it
ends at the path itself, so reading, writing and making directories come down to the entry there.
What a lookup finds is found at the end of all segments of its path, so no part of the path leads in
a circle.
-/

namespace DesignGraph.FileTree

variable {tree : FileTree} {path : Path}

/-- The top of a tree is a directory. -/
theorem ne_nil_of_ne_directory {place : List String}
    (noDirectory : tree.entry? place ≠ some .directory) : place ≠ [] := by
  rintro rfl
  exact noDirectory rfl

theorem entry_set (tree : FileTree) {place : List String} (below : place ≠ []) (entry : Entry)
    (at_ : List String) :
    FileTree.entry? (tree.set place entry) at_ =
      if at_ = place then some entry else tree.entry? at_ := by
  unfold entry? set
  by_cases same : at_ = place
  · subst same
    simp [below]
  · simp only [if_neg same]
    rw [OrderedMap.get?_insert_of_ne _ _ same]

theorem entry_eq_get? {place : List String} (below : place ≠ []) :
    tree.entry? place = tree.entries.get? place := by
  unfold entry?
  rw [if_neg (by simpa using below)]

/-- The segments of a path behind those where it starts. -/
theorem absolute_eq_append (tree : FileTree) (path : Path) : tree.absolute path =
    (if path.isAbsolute then [] else tree.workingDirectory) ++ path.parts := by
  unfold absolute
  split <;> rfl

/-- What becomes of the next segment. -/
theorem follow_cons (tree : FileTree) (followLast : Bool) (links : Nat) (here : List String)
    (part : String) (rest : List String) :
    tree.follow followLast links here (part :: rest) =
      match tree.entry? here with
      | some .directory =>
          if part = "." then tree.follow followLast links here rest
          else if part = ".." then tree.follow followLast links here.dropLast rest
          else if nameLimit < part.utf8ByteSize then .error .nameTooLong
          else match tree.entry? (here ++ [part]) with
            | some (.link target) =>
                if rest.isEmpty && !followLast then .ok (here ++ [part])
                else match links with
                  | 0 => .error .tooManyLinks
                  | links + 1 =>
                      tree.follow followLast links
                        (if (Path.ofString target).isAbsolute then [] else here)
                        ((Path.ofString target).parts ++ rest)
            | some _ => tree.follow followLast links (here ++ [part]) rest
            | none => if rest.isEmpty then .ok (here ++ [part]) else .error .missing
      | some _ => .error .notDirectory
      | none => .error .missing := by
  rw [follow]
  rcases tree.entry? here with _ | entry
  · rfl
  cases entry with
  | directory =>
    by_cases stays : part = "."
    · simp only [if_pos stays]
    by_cases rises : part = ".."
    · simp only [if_neg stays, if_pos rises]
    by_cases long : nameLimit < part.utf8ByteSize
    · simp only [if_neg stays, if_neg rises, if_pos long]
    simp only [if_neg stays, if_neg rises, if_neg long]
    split
    · next target found => cases links <;> simp only [found]
    · next found => simp only [found]
    · next found => simp only [found]
  | _ => rfl

theorem follow_cons_name (tree : FileTree) (followLast : Bool) (links : Nat) {here : List String}
    {part : String} (rest : List String) (inside : tree.entry? here = some .directory)
    (moves : part ≠ ".") (sinks : part ≠ "..") (short : ¬ nameLimit < part.utf8ByteSize) :
    tree.follow followLast links here (part :: rest) =
      match tree.entry? (here ++ [part]) with
      | some (.link target) =>
          if rest.isEmpty && !followLast then .ok (here ++ [part])
          else match links with
            | 0 => .error .tooManyLinks
            | links + 1 =>
                tree.follow followLast links
                  (if (Path.ofString target).isAbsolute then [] else here)
                  ((Path.ofString target).parts ++ rest)
      | some _ => tree.follow followLast links (here ++ [part]) rest
      | none => if rest.isEmpty then .ok (here ++ [part]) else .error .missing := by
  rw [follow_cons, inside]
  simp only [if_neg moves, if_neg sinks, if_neg short]

/-- Whether a segment is the name of something below a directory. -/
def isName (part : String) : Bool :=
  part ≠ "." && part ≠ ".." && decide (part.utf8ByteSize ≤ nameLimit)

/-- Whether directories alone stand along the segments and no link stands at their end. Only the
last segment may be missing. -/
def leadsStraight (tree : FileTree) (here : List String) : List String → Bool
  | [] => true
  | part :: rest =>
      (match tree.entry? here with
        | some .directory => true
        | _ => false) &&
      isName part &&
      (match tree.entry? (here ++ [part]) with
        | some (.link _) => false
        | some _ => true
        | none => rest.isEmpty) &&
      tree.leadsStraight (here ++ [part]) rest

theorem leadsStraight_cons_iff {here rest : List String} {part : String} :
    tree.leadsStraight here (part :: rest) = true ↔
      tree.entry? here = some .directory ∧ isName part = true ∧
      (∀ target, tree.entry? (here ++ [part]) ≠ some (.link target)) ∧
      (tree.entry? (here ++ [part]) = none → rest = []) ∧
      tree.leadsStraight (here ++ [part]) rest = true := by
  have directory : (match tree.entry? here with
      | some .directory => true
      | _ => false) = true ↔ tree.entry? here = some .directory := by
    split <;> simp_all
  have next : (match tree.entry? (here ++ [part]) with
      | some (.link _) => false
      | some _ => true
      | none => rest.isEmpty) = true ↔
      (∀ target, tree.entry? (here ++ [part]) ≠ some (.link target)) ∧
        (tree.entry? (here ++ [part]) = none → rest = []) := by
    cases tree.entry? (here ++ [part]) with
    | none => simp
    | some entry => cases entry <;> simp
  rw [leadsStraight, Bool.and_eq_true, Bool.and_eq_true, Bool.and_eq_true, directory, next]
  simp only [and_assoc]

theorem follow_of_leadsStraight {here rest : List String}
    (straight : tree.leadsStraight here rest = true) (followLast : Bool) (links : Nat) :
    tree.follow followLast links here rest = .ok (here ++ rest) := by
  induction rest generalizing here with
  | nil => rw [follow, List.append_nil]
  | cons part rest ih =>
    obtain ⟨inside, named, noLink, lastIfAbsent, onwards⟩ := leadsStraight_cons_iff.mp straight
    simp only [isName, Bool.and_eq_true, decide_eq_true_eq, ne_eq, decide_not,
      Bool.not_eq_true', decide_eq_false_iff_not] at named
    obtain ⟨⟨notHere, notUp⟩, short⟩ := named
    have reached := ih onwards
    rw [List.append_assoc, List.singleton_append] at reached
    rw [follow_cons]
    simp only [inside, if_neg notHere, if_neg notUp, if_neg (Nat.not_lt.mpr short)]
    cases found : tree.entry? (here ++ [part]) with
    | none =>
      obtain rfl := lastIfAbsent found
      rfl
    | some entry =>
      cases entry with
      | link target => exact absurd found (noLink target)
      | directory => exact reached
      | file content => exact reached

/-- A straight way goes on straight from each place on it. -/
theorem leadsStraight_of_append {here front back : List String}
    (straight : tree.leadsStraight here (front ++ back) = true) :
    tree.leadsStraight (here ++ front) back = true := by
  induction front generalizing here with
  | nil => rwa [List.append_nil]
  | cons part front ih =>
    obtain ⟨-, -, -, -, straight⟩ := leadsStraight_cons_iff.mp straight
    have onwards := ih straight
    rwa [List.append_assoc] at onwards

/-- A lookup finds what is where its path leads. -/
theorem lookup_eq_ok_iff {place : List String} {entry : Entry} :
    tree.lookup path = .ok (place, entry) ↔
      tree.place true path = .ok place ∧ FileTree.entry? tree place = some entry := by
  simp only [lookup, Answers.bind_eq_ok_iff]
  constructor
  · rintro ⟨reached, placed, present⟩
    split at present
    · next found =>
      cases present
      exact ⟨placed, found⟩
    · cases present
  · rintro ⟨placed, found⟩
    exact ⟨place, placed, by rw [found]; rfl⟩

/-- Whether an absolute path leads straight to its place. -/
def isStraight (tree : FileTree) (path : Path) : Bool :=
  path.isAbsolute && !path.isMalformed && tree.leadsStraight [] path.parts

theorem place_of_isStraight (straight : tree.isStraight path = true) (followLast : Bool) :
    tree.place followLast path = .ok path.parts := by
  simp only [isStraight, Bool.and_eq_true, Bool.not_eq_true'] at straight
  obtain ⟨⟨absolute, wellFormed⟩, straight⟩ := straight
  simp only [place, wellFormed, FileTree.absolute, absolute, if_true, Bool.false_eq_true, if_false]
  exact follow_of_leadsStraight straight followLast linkLimit

theorem lookup_of_isStraight (straight : tree.isStraight path = true) {entry : Entry}
    (found : tree.entry? path.parts = some entry) :
    tree.lookup path = .ok (path.parts, entry) :=
  lookup_eq_ok_iff.mpr ⟨place_of_isStraight straight true, found⟩

theorem read_of_isStraight (straight : tree.isStraight path = true) {content : ByteArray}
    (found : tree.entry? path.parts = some (.file content)) : tree.read path = .ok content := by
  rw [read, lookup_of_isStraight straight found]
  rfl

theorem write_of_isStraight (straight : tree.isStraight path = true)
    (notDirectory : tree.entry? path.parts ≠ some .directory) (content : ByteArray) :
    tree.write path content = .ok (tree.set path.parts (.file content)) := by
  rw [write, Answers.bind_eq_ok_iff]
  refine ⟨_, place_of_isStraight straight true, ?_⟩
  split
  · next directory => exact absurd directory notDirectory
  · rfl

theorem makeDirectories_eq_ok_iff {other : FileTree} : tree.makeDirectories path = .ok other ↔
    tree.makeDirectoriesTo path path.parts.length = .ok other := by
  unfold makeDirectories
  cases tree.makeDirectoriesTo path path.parts.length <;> simp [Except.mapError]

/-- A directory that is there already stays as it is. -/
theorem makeDirectories_of_isStraight (straight : tree.isStraight path = true)
    (directory : tree.entry? path.parts = some .directory) :
    tree.makeDirectories path = .ok tree := by
  have present : tree.isDirectory path = true := by
    rw [isDirectory, lookup_of_isStraight straight directory]
  have refused : tree.makeDirectory path = .error .alreadyExists := by
    simp only [makeDirectory, place_of_isStraight straight, bind, Except.bind, directory]
    rfl
  unfold makeDirectories
  cases parts : path.parts with
  | nil =>
    have whole : ({ path with parts := [] } : Path) = path := by rw [← parts]
    rw [List.length_nil, makeDirectoriesTo, whole, ensureDirectory, refused]
    simp only [present, if_true]
    rfl
  | cons part rest =>
    have whole : ({ path with parts := path.parts.take (rest.length + 1) } : Path) = path := by
      rw [parts, List.take_of_length_le (Nat.le_of_eq List.length_cons), ← parts]
    rw [List.length_cons, makeDirectoriesTo]
    simp only [whole, refused, present, if_true]
    rfl

/-! ## Lookups that do not end -/

/-- A lookup that follows too many links does so whatever comes after. -/
theorem follow_append_of_tooManyLinks {links : Nat} {here front : List String}
    (endless : tree.follow true links here front = .error .tooManyLinks) (back : List String) :
    tree.follow true links here (front ++ back) = .error .tooManyLinks := by
  fun_induction FileTree.follow tree true links here front with
  | case1 | case4 | case9 | case10 | case11 | case12 => cases endless
  | case2 | case3 | case5 | case6 | case7 | case8 =>
    rw [List.cons_append, follow_cons]
    simp_all +zetaDelta [Nat.not_lt.mpr]

/-- A path is not followed at all if its first name is too long. -/
theorem lookup_of_longName {part : String} {rest : List String}
    (start : tree.absolute path = part :: rest) (wellFormed : path.isMalformed = false)
    (long : nameLimit < part.utf8ByteSize) : tree.lookup path = .error .nameTooLong := by
  have moves : part ≠ "." := by
    rintro rfl
    exact absurd long (by decide)
  have sinks : part ≠ ".." := by
    rintro rfl
    exact absurd long (by decide)
  have top : tree.entry? [] = some .directory := rfl
  rw [lookup, place, wellFormed, start]
  simp only [Bool.false_eq_true, if_false]
  rw [follow_cons, top]
  simp only [if_neg moves, if_neg sinks, if_pos long]
  rfl

theorem isFile_iff : tree.isFile path = true ↔
    ∃ place content, tree.lookup path = .ok (place, .file content) := by
  unfold isFile
  cases tree.lookup path with
  | error _ => simp
  | ok found =>
    obtain ⟨place, entry⟩ := found
    cases entry <;> simp

/-- A question is answered unless it meets a name that is too long. -/
theorem ask_eq_ok_iff {question : FileTree → Path → Bool} {answer : Bool} :
    tree.ask question path = .ok answer ↔
      tree.lookup path ≠ .error .nameTooLong ∧ question tree path = answer := by
  unfold ask
  split
  · next tooLong => simp [tooLong]
  · next notTooLong => simpa using fun _ => notTooLong

theorem ask_isFile_iff : tree.ask isFile path = .ok true ↔ tree.isFile path = true := by
  refine ask_eq_ok_iff.trans (and_iff_right_of_imp fun isFile => ?_)
  obtain ⟨place, content, found⟩ := isFile_iff.mp isFile
  rw [found]
  rintro ⟨⟩

/-- A lookup that finds something follows the segments of its path to an end. -/
theorem follow_of_lookup {place : List String} {entry : Entry}
    (found : tree.lookup path = .ok (place, entry)) : path.isMalformed = false ∧
      tree.follow true linkLimit [] (tree.absolute path) = .ok place ∧
      FileTree.entry? tree place = some entry := by
  obtain ⟨placed, there⟩ := lookup_eq_ok_iff.mp found
  unfold FileTree.place at placed
  split_ifs at placed with malformed
  exact ⟨by simpa using malformed, placed, there⟩

/-- On the way to what is there no lookup is without end. -/
theorem lookup_ne_tooManyLinks_of_covers {front : Path} (covers : front.covers path = true)
    {found : List String × Entry} (there : tree.lookup path = .ok found) :
    tree.lookup front ≠ .error .tooManyLinks := by
  obtain ⟨-, reached, -⟩ := follow_of_lookup there
  simp only [Path.covers, Bool.and_eq_true, decide_eq_true_eq, List.isPrefixOf_iff_prefix]
    at covers
  obtain ⟨anchor, back, parts⟩ := covers
  have onwards : tree.absolute path = tree.absolute front ++ back := by
    simp only [FileTree.absolute, Path.isAbsolute, anchor, ← parts]
    split <;> simp
  intro endless
  have endlessly : tree.follow true linkLimit [] (tree.absolute front) = .error .tooManyLinks := by
    unfold lookup FileTree.place at endless
    split_ifs at endless
    · cases endless
    · cases followed : tree.follow true linkLimit [] (tree.absolute front) with
      | error refusal =>
        rw [followed] at endless
        cases endless
        rfl
      | ok place =>
        rw [followed] at endless
        simp only [bind, Except.bind] at endless
        split at endless <;> cases endless
  rw [onwards, follow_append_of_tooManyLinks endlessly] at reached
  cases reached

theorem resolve_of_lookup_ne (ends : tree.lookup (tree.realPath path) ≠ .error .tooManyLinks) :
    tree.resolve path = .ok (tree.realPath path) := by
  unfold resolve
  split
  · next endless => exact absurd endless ends
  · rfl

end DesignGraph.FileTree
