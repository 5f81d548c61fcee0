import DesignGraph.Proofs.Stores

/-!
# Making directories again

Where directories have been made, making them again changes nothing, whatever else has been stored
in the meantime. Where they could not be made, it is refused again and leaves the tree as the first
attempt has left it.
-/

namespace DesignGraph

/-- So many leading segments of a path. -/
def Path.upTo (path : Path) (count : Nat) : Path := { path with parts := path.parts.take count }

@[simp] theorem Path.parts_upTo (path : Path) (count : Nat) :
    (path.upTo count).parts = path.parts.take count := rfl

namespace FileTree

variable {tree other made left : FileTree} {path : Path} {links : Nat} {followLast : Bool}
  {here rest front place : List String} {refusal : Refusal}

/-! ## Lookups that leave a last link alone -/

/-- What is found is also found without following a last link, if only that link itself. -/
theorem exists_follow_false (found : tree.follow true links here rest = .ok place)
    {entry : Entry} (present : tree.entry? place = some entry) : ∃ found entry,
      tree.follow false links here rest = .ok found ∧ tree.entry? found = some entry := by
  fun_induction FileTree.follow tree true links here rest with
  | case1 links here =>
    rw [← Except.ok.inj found] at present
    exact ⟨here, entry, by rw [follow], present⟩
  | case2 links here rest inside ih =>
    rw [follow_cons, inside]
    exact ih found
  | case3 links here rest inside _ ih =>
    rw [follow_cons, inside]
    exact ih found
  | case4 | case6 | case10 | case11 | case12 => cases found
  | case5 _ _ _ _ _ _ _ _ _ _ _ last => simp at last
  | case7 here part rest inside moves sinks short next target linked _ links jump ih =>
    rw [follow_cons_name tree _ _ _ inside moves sinks short, linked]
    cases rest with
    | nil => exact ⟨next, _, rfl, linked⟩
    | cons => exact ih found
  | case8 links here part rest inside moves sinks short next entry noLink there ih =>
    rw [follow_cons_name tree _ _ _ inside moves sinks short, there]
    cases entry with
    | link target => exact (noLink target rfl).elim
    | directory => exact ih found
    | file => exact ih found
  | case9 links here part rest inside moves sinks short next absent last =>
    rw [← Except.ok.inj found, absent] at present
    cases present

/-- Unless a link stands at the end, following it makes no difference. -/
theorem follow_true_of_follow_false (found : tree.follow false links here rest = .ok place)
    (plain : ∀ target, tree.entry? place ≠ some (.link target)) :
    tree.follow true links here rest = .ok place := by
  fun_induction FileTree.follow tree false links here rest with
  | case1 links here =>
    rw [follow, ← found]
  | case2 links here rest inside ih =>
    rw [follow_cons, inside]
    exact ih found
  | case3 links here rest inside _ ih =>
    rw [follow_cons, inside]
    exact ih found
  | case4 | case6 | case10 | case11 | case12 => cases found
  | case5 links here part rest inside moves sinks short next target linked last =>
    rw [← Except.ok.inj found] at plain
    exact absurd linked (plain target)
  | case7 here part rest inside moves sinks short next target linked _ links jump ih =>
    rw [follow_cons_name tree _ _ _ inside moves sinks short, linked]
    simpa using ih found
  | case8 links here part rest inside moves sinks short next entry noLink there ih =>
    rw [follow_cons_name tree _ _ _ inside moves sinks short, there]
    cases entry with
    | link target => exact (noLink target rfl).elim
    | directory => exact ih found
    | file => exact ih found
  | case9 links here part rest inside moves sinks short next absent last =>
    rw [follow_cons_name tree _ _ _ inside moves sinks short, absent]
    simpa only [if_pos last] using found

/-- A lookup gets to its last segment through a directory. -/
theorem exists_follow_front {last : String}
    (found : tree.follow followLast links here (front ++ [last]) = .ok place) : ∃ inner,
      tree.follow true links here front = .ok inner ∧ tree.entry? inner = some .directory := by
  fun_induction FileTree.follow tree true links here front with
  | case1 links here =>
    rw [List.nil_append, follow_cons] at found
    split at found
    · next inside => exact ⟨here, rfl, inside⟩
    · cases found
    · cases found
  | case2 links here rest inside ih =>
    rw [List.cons_append, follow_cons, inside] at found
    exact ih found
  | case3 links here rest inside _ ih =>
    rw [List.cons_append, follow_cons, inside] at found
    exact ih found
  | case4 links here part rest inside moves sinks long =>
    rw [List.cons_append, follow_cons, inside] at found
    simp only [if_neg moves, if_neg sinks, if_pos long] at found
    cases found
  | case5 _ _ _ _ _ _ _ _ _ _ _ isLast => simp at isLast
  | case6 here part rest inside moves sinks short next target linked _ =>
    rw [List.cons_append, follow_cons_name tree _ _ _ inside moves sinks short, linked] at found
    simp at found
  | case7 here part rest inside moves sinks short next target linked _ links jump ih =>
    rw [List.cons_append, follow_cons_name tree _ _ _ inside moves sinks short, linked] at found
    refine ih ?_
    rw [List.append_assoc]
    simpa using found
  | case8 links here part rest inside moves sinks short next entry noLink there ih =>
    rw [List.cons_append, follow_cons_name tree _ _ _ inside moves sinks short, there] at found
    cases entry with
    | link target => exact (noLink target rfl).elim
    | directory => exact ih found
    | file => exact ih found
  | case9 links here part rest inside moves sinks short next absent _ =>
    rw [List.cons_append, follow_cons_name tree _ _ _ inside moves sinks short, absent] at found
    simp at found
  | case10 links here part rest inside moves sinks short next absent _ =>
    rw [List.cons_append, follow_cons_name tree _ _ _ inside moves sinks short, absent] at found
    simp at found
  | case11 links here part rest entry noDirectory there =>
    rw [List.cons_append, follow_cons, there] at found
    cases entry with
    | directory => exact (noDirectory rfl).elim
    | file | link => cases found
  | case12 links here part rest absent =>
    rw [List.cons_append, follow_cons, absent] at found
    cases found

/-! ## Directories that are there -/

theorem isDirectory_iff :
    tree.isDirectory path = true ↔ ∃ place, tree.lookup path = .ok (place, .directory) := by
  unfold isDirectory
  cases tree.lookup path with
  | error _ => simp
  | ok found =>
    obtain ⟨place, entry⟩ := found
    cases entry <;> simp

theorem ask_of_isDirectory (found : tree.isDirectory path = true) :
    tree.ask isDirectory path = .ok true := by
  obtain ⟨place, there⟩ := isDirectory_iff.mp found
  refine ask_eq_ok_iff.mpr ⟨?_, found⟩
  rw [there]
  rintro ⟨⟩

/-- A directory stays one. -/
theorem Keeps.isDirectory (keeps : tree.Keeps other) (found : tree.isDirectory path = true) :
    other.isDirectory path = true := by
  obtain ⟨place, there⟩ := isDirectory_iff.mp found
  obtain ⟨placed, present⟩ := lookup_eq_ok_iff.mp there
  exact isDirectory_iff.mpr
    ⟨place, lookup_eq_ok_iff.mpr ⟨keeps.place_eq placed, keeps.directory present⟩⟩

/-- A directory is in the way of another one. -/
theorem makeDirectory_of_isDirectory (found : tree.isDirectory path = true) :
    tree.makeDirectory path = .error .alreadyExists := by
  obtain ⟨place, there⟩ := isDirectory_iff.mp found
  obtain ⟨wellFormed, reached, present⟩ := follow_of_lookup there
  obtain ⟨inner, entry, reachedToo, found⟩ := exists_follow_false reached present
  simp only [makeDirectory, FileTree.place, wellFormed, Bool.false_eq_true, if_false, reachedToo,
    bind, Except.bind, found]
  rfl

/-- What has been made is a directory. -/
theorem isDirectory_of_makeDirectory (success : tree.makeDirectory path = .ok made) :
    made.isDirectory path = true := by
  have keeps := (stores_of_makeDirectory success).keeps
  obtain ⟨place, placed, absent⟩ := Answers.bind_eq_ok_iff.mp success
  split at absent
  · cases absent
  · next nothing =>
    obtain rfl := Except.ok.inj absent
    have noDirectory : tree.entry? place ≠ some .directory := by simp [nothing]
    have below := ne_nil_of_ne_directory noDirectory
    have there : FileTree.entry? (tree.set place .directory) place = some .directory := by
      rw [entry_set tree below, if_pos rfl]
    have again := keeps.place_eq placed
    refine isDirectory_iff.mpr ⟨place, lookup_eq_ok_iff.mpr ⟨?_, there⟩⟩
    unfold FileTree.place at again ⊢
    split_ifs at again ⊢
    exact follow_true_of_follow_false again (by simp [there])

theorem isDirectory_of_ensureDirectory (success : tree.ensureDirectory path = .ok made) :
    made.isDirectory path = true := by
  unfold ensureDirectory at success
  split at success
  · split_ifs at success with found
    cases success
    exact found
  · exact isDirectory_of_makeDirectory success

/-! ## Many directories -/

variable {count : Nat}

theorem makeDirectoriesTo_zero (tree : FileTree) (path : Path) :
    tree.makeDirectoriesTo path 0 =
      (tree.ensureDirectory (path.upTo 0)).mapError (·, tree) := rfl

theorem makeDirectoriesTo_succ (tree : FileTree) (path : Path) (count : Nat) :
    tree.makeDirectoriesTo path (count + 1) =
      match tree.makeDirectory (path.upTo (count + 1)) with
      | .error .missing =>
          (tree.makeDirectoriesTo path count).bind fun above =>
            (above.ensureDirectory (path.upTo (count + 1))).mapError (·, above)
      | .error refusal =>
          if tree.isDirectory (path.upTo (count + 1)) then .ok tree else .error (refusal, tree)
      | .ok made => .ok made := rfl

theorem ensureDirectory_of_isDirectory (found : tree.isDirectory path = true) :
    tree.ensureDirectory path = .ok tree := by
  rw [ensureDirectory, makeDirectory_of_isDirectory found]
  exact if_pos found

theorem makeDirectoriesTo_of_isDirectory (found : tree.isDirectory (path.upTo count) = true) :
    tree.makeDirectoriesTo path count = .ok tree := by
  cases count with
  | zero =>
    rw [makeDirectoriesTo_zero, ensureDirectory_of_isDirectory found]
    rfl
  | succ count =>
    rw [makeDirectoriesTo_succ, makeDirectory_of_isDirectory found]
    exact if_pos found

theorem isDirectory_of_makeDirectoriesTo (success : tree.makeDirectoriesTo path count = .ok made) :
    made.isDirectory (path.upTo count) = true := by
  have ensured {tree : FileTree} {path : Path}
      (success : (tree.ensureDirectory path).mapError (·, tree) = .ok made) :
      made.isDirectory path = true := by
    cases ensures : tree.ensureDirectory path with
    | error refusal =>
      rw [ensures] at success
      cases success
    | ok other =>
      rw [ensures] at success
      cases success
      exact isDirectory_of_ensureDirectory ensures
  cases count with
  | zero => exact ensured success
  | succ count =>
    rw [makeDirectoriesTo_succ] at success
    split at success
    · obtain ⟨above, -, last⟩ := Answers.bind_eq_ok_iff.mp success
      exact ensured last
    · split_ifs at success with found
      cases success
      exact found
    · next makes =>
      cases success
      exact isDirectory_of_makeDirectory makes

/-- Directories that have been made are there from then on. -/
theorem makeDirectories_again (success : tree.makeDirectories path = .ok made)
    (keeps : made.Keeps other) : other.makeDirectories path = .ok other := by
  have found := isDirectory_of_makeDirectoriesTo (makeDirectories_eq_ok_iff.mp success)
  exact makeDirectories_eq_ok_iff.mpr (makeDirectoriesTo_of_isDirectory (keeps.isDirectory found))

/-! ## Refusals -/

theorem isMalformed_upTo (wellFormed : (path.upTo (count + 1)).isMalformed = false) :
    (path.upTo count).isMalformed = false := by
  simp only [Path.isMalformed, Path.upTo, List.any_eq_false] at wellFormed ⊢
  exact fun part member => wellFormed part (List.take_subset_take_left _ (Nat.le_succ _) member)

/-- A place is found behind directories only. -/
theorem isDirectory_of_place_succ (few : count < path.parts.length)
    (placed : tree.place followLast (path.upTo (count + 1)) = .ok place) :
    tree.isDirectory (path.upTo count) = true := by
  have onwards : tree.absolute (path.upTo (count + 1)) =
      tree.absolute (path.upTo count) ++ [path.parts[count]] := by
    have split : path.parts.take (count + 1) = path.parts.take count ++ [path.parts[count]] :=
      List.take_succ_eq_append_getElem few
    rw [absolute_eq_append, absolute_eq_append, Path.parts_upTo, Path.parts_upTo, split,
      List.append_assoc]
    rfl
  unfold FileTree.place at placed
  split_ifs at placed with malformed
  rw [onwards] at placed
  obtain ⟨inner, reached, directory⟩ := exists_follow_front placed
  refine isDirectory_iff.mpr ⟨inner, lookup_eq_ok_iff.mpr ⟨?_, directory⟩⟩
  rw [FileTree.place, isMalformed_upTo (by simpa using malformed)]
  exact reached

/-- Where a directory above cannot be made, neither can the next one. -/
theorem makeDirectoriesTo_succ_of_refused (few : count < path.parts.length)
    (refused : tree.makeDirectoriesTo path count = .error (refusal, tree)) :
    ∃ again, tree.makeDirectoriesTo path (count + 1) = .error (again, tree) := by
  have noDirectory : ¬ tree.isDirectory (path.upTo count) = true := by
    intro found
    rw [makeDirectoriesTo_of_isDirectory found] at refused
    cases refused
  have noPlace (followLast : Bool) (place : List String) :
      tree.place followLast (path.upTo (count + 1)) ≠ .ok place :=
    fun placed => noDirectory (isDirectory_of_place_succ few placed)
  rw [makeDirectoriesTo_succ]
  split
  · rw [refused]
    exact ⟨refusal, rfl⟩
  · next other _ _ =>
    rw [if_neg]
    · exact ⟨other, rfl⟩
    · intro found
      obtain ⟨place, there⟩ := isDirectory_iff.mp found
      exact noPlace _ place (lookup_eq_ok_iff.mp there).1
  · next made =>
    obtain ⟨place, placed, -⟩ := Answers.bind_eq_ok_iff.mp made
    exact absurd placed (noPlace _ place)

/-- Where the directories above have been made, the refusal of the last one is that of all. -/
theorem makeDirectoriesTo_succ_of_ensureDirectory
    (found : tree.isDirectory (path.upTo count) = true)
    (refused : tree.ensureDirectory (path.upTo (count + 1)) = .error refusal) :
    ∃ again, tree.makeDirectoriesTo path (count + 1) = .error (again, tree) := by
  rw [makeDirectoriesTo_succ]
  split
  · rw [makeDirectoriesTo_of_isDirectory found]
    exact ⟨refusal, by simp only [Except.bind, refused]; rfl⟩
  · next other _ makes =>
    rw [ensureDirectory, makes] at refused
    dsimp only at refused
    split_ifs at refused with isDirectory
    rw [if_neg isDirectory]
    exact ⟨other, rfl⟩
  · next made makes =>
    rw [ensureDirectory, makes] at refused
    cases refused

/-- Directories that could not all be made cannot be made in what is left of the attempt either,
and nothing is added to it. -/
theorem makeDirectoriesTo_again (few : count ≤ path.parts.length)
    (refused : tree.makeDirectoriesTo path count = .error (refusal, left)) :
    ∃ again, left.makeDirectoriesTo path count = .error (again, left) := by
  induction count generalizing refusal left with
  | zero =>
    have same : left = tree := by
      rw [makeDirectoriesTo_zero] at refused
      cases ensured : tree.ensureDirectory (path.upTo 0) with
      | error refusal =>
        rw [ensured] at refused
        cases refused
        rfl
      | ok made =>
        rw [ensured] at refused
        cases refused
    exact ⟨refusal, same ▸ refused⟩
  | succ count ih =>
    have refusedHere := refused
    rw [makeDirectoriesTo_succ] at refused
    split at refused
    · cases above : tree.makeDirectoriesTo path count with
      | error failure =>
        rw [above] at refused
        cases refused
        obtain ⟨again, refusedAgain⟩ := ih (Nat.le_of_succ_le few) above
        exact makeDirectoriesTo_succ_of_refused few refusedAgain
      | ok between =>
        rw [above] at refused
        cases ensured : between.ensureDirectory (path.upTo (count + 1)) with
        | ok made =>
          simp only [Except.bind, ensured] at refused
          cases refused
        | error refusal =>
          simp only [Except.bind, ensured] at refused
          cases refused
          exact makeDirectoriesTo_succ_of_ensureDirectory
            (isDirectory_of_makeDirectoriesTo above) ensured
    · split_ifs at refused
      cases refused
      exact ⟨refusal, refusedHere⟩
    · cases refused

/-! ## The fault of a refusal -/

theorem follow_ne_malformedName :
    tree.follow followLast links here rest ≠ .error .malformedName := by
  fun_induction FileTree.follow tree followLast links here rest with
  | case1 | case4 | case5 | case6 | case9 | case10 | case11 | case12 => simp
  | case2 | case3 | case7 | case8 => assumption

/-- A lookup is refused for the name if no file has it, and otherwise for what stands in the way. -/
theorem ofRefusal_of_place (refused : tree.place followLast path = .error refusal) :
    Fault.ofRefusal refusal = if path.isMalformed then .content else .fileSystem := by
  unfold FileTree.place at refused
  split_ifs at refused ⊢ with malformed
  · cases refused
    rfl
  · cases refusal with
    | malformedName => exact absurd refused follow_ne_malformedName
    | _ => rfl

theorem ofRefusal_of_makeDirectory (refused : tree.makeDirectory path = .error refusal) :
    Fault.ofRefusal refusal = if path.isMalformed then .content else .fileSystem := by
  cases placed : tree.place false path with
  | error other =>
    simp only [makeDirectory, placed, bind, Except.bind] at refused
    cases refused
    exact ofRefusal_of_place placed
  | ok place =>
    have wellFormed : path.isMalformed = false := by
      unfold FileTree.place at placed
      split_ifs at placed with malformed
      simpa using malformed
    simp only [makeDirectory, placed, bind, Except.bind] at refused
    split at refused
    · cases refused
      rw [wellFormed]
      rfl
    · cases refused

theorem ofRefusal_of_ensureDirectory (refused : tree.ensureDirectory path = .error refusal) :
    Fault.ofRefusal refusal = if path.isMalformed then .content else .fileSystem := by
  unfold ensureDirectory at refused
  split at refused
  · next other makes =>
    split_ifs at refused
    cases refused
    exact ofRefusal_of_makeDirectory makes
  · exact ofRefusal_of_makeDirectory refused

theorem ofRefusal_of_makeDirectoriesTo
    (refused : tree.makeDirectoriesTo path count = .error (refusal, left)) :
    Fault.ofRefusal refusal = if (path.upTo count).isMalformed then .content else .fileSystem := by
  have ensured {tree left : FileTree} {path : Path}
      (refused : (tree.ensureDirectory path).mapError (·, tree) = .error (refusal, left)) :
      Fault.ofRefusal refusal = if path.isMalformed then .content else .fileSystem := by
    cases ensures : tree.ensureDirectory path with
    | error other =>
      rw [ensures] at refused
      cases refused
      exact ofRefusal_of_ensureDirectory ensures
    | ok made =>
      rw [ensures] at refused
      cases refused
  induction count generalizing left with
  | zero => exact ensured refused
  | succ count ih =>
    rw [makeDirectoriesTo_succ] at refused
    split at refused
    · next missing =>
      have wellFormed : (path.upTo (count + 1)).isMalformed = false := by
        have fault := ofRefusal_of_makeDirectory missing
        by_contra malformed
        simp [malformed, Fault.ofRefusal] at fault
      cases above : tree.makeDirectoriesTo path count with
      | error failure =>
        rw [above] at refused
        cases refused
        rw [ih above, isMalformed_upTo wellFormed, wellFormed]
      | ok between =>
        rw [above] at refused
        exact ensured refused
    · next other _ makes =>
      split_ifs at refused
      cases refused
      exact ofRefusal_of_makeDirectory makes
    · cases refused

end FileTree

namespace Disk

/-- Directories that could not be made cannot be made in what is left of the attempt, with the same
fault and no further change. -/
theorem run_makeDirectories_again {path : Path} {before after : FileTree} {fault : Fault}
    (refused : (Disk.makeDirectories path).run.run before = (.error fault, after)) :
    (Disk.makeDirectories path).run.run after = (.error fault, after) := by
  rw [run_makeDirectories_eq] at refused ⊢
  split at refused
  · cases refused
  · next refusal left refuses =>
    cases refused
    obtain ⟨again, refusesAgain⟩ := FileTree.makeDirectoriesTo_again (Nat.le_refl _) refuses
    rw [refusesAgain]
    simp only [FileTree.ofRefusal_of_makeDirectoriesTo refusesAgain,
      FileTree.ofRefusal_of_makeDirectoriesTo refuses]

end Disk

end DesignGraph
