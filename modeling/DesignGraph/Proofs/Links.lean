import DesignGraph.Proofs.FileTree
import DesignGraph.Proofs.Path

/-!
# Paths with every link followed

`Leads` says where segments lead when every link on the way is followed, and in how many steps.
Segments lead to one place at most (`Leads.unique`), and nowhere if a link on the way leads back to
itself. Following the links as far as they end finds that place (`realFrom_eq_place_iff`). No link
is left on the way to it, so a lookup of it ends nowhere else.
-/

namespace DesignGraph.FileTree

variable {tree : FileTree} {here rest place middle opened : List String} {part target : String}

/-- The directory from which the target of a link in `here` is followed. -/
def linkStart (here : List String) (target : String) : List String :=
  if (Path.ofString target).isAbsolute then [] else here

/-- Segments lead from a directory to a place in so many steps. What does not exist counts as a
directory without links. -/
inductive Leads (tree : FileTree) : Nat → List String → List String → List String → Prop
  | done (here : List String) : Leads tree 0 here [] here
  | stay {n : Nat} {here rest place : List String} {part : String}
      (stays : part = "" ∨ part = ".") (onwards : Leads tree n here rest place) :
      Leads tree (n + 1) here (part :: rest) place
  | rise {n : Nat} {here rest place : List String}
      (onwards : Leads tree n here.dropLast rest place) :
      Leads tree (n + 1) here (".." :: rest) place
  | enter {n : Nat} {here rest place : List String} {part : String}
      (moves : ¬ (part = "" ∨ part = ".")) (sinks : part ≠ "..")
      (plain : ∀ target, FileTree.entry? tree (here ++ [part]) ≠ some (.link target))
      (onwards : Leads tree n (here ++ [part]) rest place) :
      Leads tree (n + 1) here (part :: rest) place
  | link {m n : Nat} {here rest middle place : List String} {part target : String}
      (moves : ¬ (part = "" ∨ part = ".")) (sinks : part ≠ "..")
      (linked : FileTree.entry? tree (here ++ [part]) = some (.link target))
      (through : Leads tree m (linkStart here target) (Path.segments target) middle)
      (onwards : Leads tree n middle rest place) :
      Leads tree (m + n + 1) here (part :: rest) place

/-- What becomes of the next segment when every link is followed. -/
theorem realFrom_cons (tree : FileTree) (opened : List (List String)) (here : List String)
    (part : String) (rest : List String) :
    tree.realFrom opened here (part :: rest) =
      if part = "" ∨ part = "." then tree.realFrom opened here rest
      else if part = ".." then tree.realFrom opened here.dropLast rest
      else match tree.entry? (here ++ [part]) with
        | some (.link target) =>
            if here ++ [part] ∈ opened then
              .circular ((⟨"/", here ++ [part]⟩ : Path).joinText ("/".intercalate rest))
            else match tree.realFrom ((here ++ [part]) :: opened) (linkStart here target)
                (Path.segments target) with
              | .place middle => tree.realFrom opened middle rest
              | .circular path => .circular (path.joinText ("/".intercalate rest))
        | _ => tree.realFrom opened (here ++ [part]) rest := by
  rw [realFrom]
  simp only [Bool.or_eq_true, decide_eq_true_eq]
  split
  · rfl
  split
  · rfl
  split
  · next target found =>
    simp only [found, List.contains_iff_mem]
    split <;> rfl
  · next none_found =>
    split
    · next target found => exact absurd found (none_found target)
    · rfl

namespace Leads

variable {n m : Nat} {other : List String}

/-- Segments lead to one place at most. -/
theorem unique (first : Leads tree n here rest place) (second : Leads tree m here rest other) :
    n = m ∧ place = other := by
  induction first generalizing m other with
  | done here =>
    cases second
    exact ⟨rfl, rfl⟩
  | stay stays onwards ih =>
    cases second with
    | stay _ again =>
      obtain ⟨rfl, rfl⟩ := ih again
      exact ⟨rfl, rfl⟩
    | rise => simp at stays
    | enter moves | link moves => exact absurd stays moves
  | rise onwards ih =>
    cases second with
    | rise again =>
      obtain ⟨rfl, rfl⟩ := ih again
      exact ⟨rfl, rfl⟩
    | stay stays => simp at stays
    | enter _ sinks | link _ sinks => exact absurd rfl sinks
  | enter moves sinks plain onwards ih =>
    cases second with
    | enter _ _ _ again =>
      obtain ⟨rfl, rfl⟩ := ih again
      exact ⟨rfl, rfl⟩
    | stay stays => exact absurd stays moves
    | rise => exact absurd rfl sinks
    | link _ _ linked => exact absurd linked (plain _)
  | link moves sinks linked through onwards ihThrough ihOnwards =>
    cases second with
    | link _ _ relinked again onwardsAgain =>
      rw [linked] at relinked
      cases relinked
      obtain ⟨rfl, rfl⟩ := ihThrough again
      obtain ⟨rfl, rfl⟩ := ihOnwards onwardsAgain
      exact ⟨rfl, rfl⟩
    | stay stays => exact absurd stays moves
    | rise => exact absurd rfl sinks
    | enter _ _ plain => exact absurd linked (plain _)

end Leads

/-- Each link that is being followed takes at least so many steps. -/
def OpenedFor (tree : FileTree) (opened : List (List String)) (steps : Nat) : Prop :=
  ∀ here part target middle m, here ++ [part] ∈ opened →
    tree.entry? (here ++ [part]) = some (.link target) →
    tree.Leads m (linkStart here target) (Path.segments target) middle → steps ≤ m

theorem OpenedFor.mono {opened : List (List String)} {n m : Nat}
    (openedFor : tree.OpenedFor opened m) (fewer : n ≤ m) : tree.OpenedFor opened n :=
  fun here part target middle k member linked through =>
    Nat.le_trans fewer (openedFor here part target middle k member linked through)

/-- What is found takes some number of steps. -/
theorem leads_of_realFrom {opened : List (List String)}
    (found : tree.realFrom opened here rest = .place place) :
    ∃ n, tree.Leads n here rest place := by
  fun_induction FileTree.realFrom tree opened here rest generalizing place with
  | case1 opened here =>
    cases found
    exact ⟨0, .done here⟩
  | case2 opened here part rest stays ih =>
    obtain ⟨n, onwards⟩ := ih found
    exact ⟨n + 1, .stay (by simpa using stays) onwards⟩
  | case3 opened here rest stays ih =>
    obtain ⟨n, onwards⟩ := ih found
    exact ⟨n + 1, .rise onwards⟩
  | case4 => cases found
  | case5 opened here part rest moves sinks target linked again start middle reached ihThrough =>
    rename_i ih
    obtain ⟨m, through⟩ := ihThrough reached
    obtain ⟨n, onwards⟩ := ih found
    exact ⟨m + n + 1, .link (by simpa using moves) sinks linked through onwards⟩
  | case6 => cases found
  | case7 opened here part rest moves sinks plain ih =>
    obtain ⟨n, onwards⟩ := ih found
    exact ⟨n + 1, .enter (by simpa using moves) sinks plain onwards⟩

/-- A link is never met while it is being followed: it would take fewer steps than itself. -/
theorem Leads.realFrom_eq {n : Nat} (leads : tree.Leads n here rest place)
    {opened : List (List String)} (openedFor : tree.OpenedFor opened n) :
    tree.realFrom opened here rest = .place place := by
  induction leads generalizing opened with
  | done here => rw [realFrom]
  | stay stays onwards ih =>
    rw [realFrom_cons, if_pos stays]
    exact ih (openedFor.mono (Nat.le_succ _))
  | rise onwards ih =>
    rw [realFrom_cons, if_neg (by simp), if_pos rfl]
    exact ih (openedFor.mono (Nat.le_succ _))
  | enter moves sinks plain onwards ih =>
    rw [realFrom_cons, if_neg moves, if_neg sinks]
    split
    · next target linked => exact absurd linked (plain target)
    · exact ih (openedFor.mono (Nat.le_succ _))
  | @link m n here rest middle place part target moves sinks linked through onwards ihThrough ih =>
    have unopened : here ++ [part] ∉ opened := by
      intro member
      have := openedFor here part target middle m member linked through
      omega
    have inside : tree.OpenedFor ((here ++ [part]) :: opened) m := by
      intro here' part' target' middle' k member linked' through'
      rcases List.mem_cons.mp member with same | earlier
      · obtain ⟨rfl, one⟩ := List.append_inj' same rfl
        obtain rfl := List.singleton_inj.mp one
        rw [linked] at linked'
        cases linked'
        exact Nat.le_of_eq (through.unique through').1
      · have := openedFor here' part' target' middle' k earlier linked' through'
        omega
    rw [realFrom_cons, if_neg moves, if_neg sinks]
    simp only [linked, if_neg unopened, ihThrough inside]
    exact ih (openedFor.mono (by omega))

/-- Following links as far as they end finds where segments lead. -/
theorem realFrom_eq_place_iff :
    tree.realFrom [] here rest = .place place ↔ ∃ n, tree.Leads n here rest place :=
  ⟨leads_of_realFrom, fun ⟨_, leads⟩ => leads.realFrom_eq fun _ _ _ _ _ member => nomatch member⟩

theorem realPath_of_leads {n : Nat} {path : Path}
    (leads : tree.Leads n [] (tree.absolute path) place) : tree.realPath path = ⟨"/", place⟩ := by
  unfold realPath
  rw [realFrom_eq_place_iff.mpr ⟨n, leads⟩]

/-! ## Places without links -/

/-- No link stands on the way to a place. -/
def IsLinkFree (tree : FileTree) (place : List String) : Prop :=
  ∀ front, front <+: place → ∀ target, tree.entry? front ≠ some (.link target)

/-- The segments of a place are names. -/
def IsNamed (place : List String) : Prop := ∀ part ∈ place, part ≠ "" ∧ part ≠ "." ∧ part ≠ ".."

theorem isLinkFree_nil (tree : FileTree) : tree.IsLinkFree [] := by
  intro front top target
  rw [List.prefix_nil.mp top]
  exact nofun

theorem IsLinkFree.dropLast (free : tree.IsLinkFree place) : tree.IsLinkFree place.dropLast :=
  fun front top => free front (top.trans place.dropLast_prefix)

theorem IsLinkFree.append (free : tree.IsLinkFree here)
    (plain : ∀ target, tree.entry? (here ++ [part]) ≠ some (.link target)) :
    tree.IsLinkFree (here ++ [part]) := by
  intro front top
  rcases List.prefix_concat_iff.mp top with rfl | above
  · exact plain
  · exact free front above

theorem isLinkFree_linkStart (free : tree.IsLinkFree here) :
    tree.IsLinkFree (linkStart here target) := by
  unfold linkStart
  split
  · exact isLinkFree_nil tree
  · exact free

theorem isNamed_linkStart (named : IsNamed here) : IsNamed (linkStart here target) := by
  unfold linkStart
  split
  · exact fun part member => nomatch member
  · exact named

/-- No link is left on the way to where segments lead. -/
theorem Leads.isLinkFree {n : Nat} (leads : tree.Leads n here rest place)
    (free : tree.IsLinkFree here) : tree.IsLinkFree place := by
  induction leads with
  | done here => exact free
  | stay _ _ ih => exact ih free
  | rise _ ih => exact ih free.dropLast
  | enter _ _ plain _ ih => exact ih (free.append plain)
  | link _ _ _ _ _ ihThrough ih => exact ih (ihThrough (isLinkFree_linkStart free))

theorem Leads.isNamed {n : Nat} (leads : tree.Leads n here rest place) (named : IsNamed here) :
    IsNamed place := by
  induction leads with
  | done here => exact named
  | stay _ _ ih => exact ih named
  | rise _ ih => exact ih fun part member => named part (List.dropLast_subset _ member)
  | enter moves sinks _ _ ih =>
    refine ih fun part member => ?_
    rcases List.mem_append.mp member with earlier | last
    · exact named part earlier
    · obtain rfl := List.mem_singleton.mp last
      exact ⟨fun blank => moves (.inl blank), fun dot => moves (.inr dot), sinks⟩
  | link _ _ _ _ _ ihThrough ih => exact ih (ihThrough (isNamed_linkStart named))

/-- Nor is a link left on the way to where a lookup ends. -/
theorem isLinkFree_of_follow {links : Nat} (free : tree.IsLinkFree here)
    (found : tree.follow true links here rest = .ok place) : tree.IsLinkFree place := by
  fun_induction FileTree.follow tree true links here rest with
  | case1 =>
    rw [← Except.ok.inj found]
    exact free
  | case2 _ _ _ _ ih => exact ih free found
  | case3 _ _ _ _ _ ih => exact ih free.dropLast found
  | case4 | case6 => cases found
  | case5 _ _ _ _ _ _ _ _ _ _ _ last => simp at last
  | case7 here _ _ _ _ _ _ _ target _ _ _ _ ih => exact ih (isLinkFree_linkStart free) found
  | case8 _ _ _ _ _ _ _ _ _ entry noLink present ih =>
    refine ih (free.append fun target linked => ?_) found
    rw [present] at linked
    exact noLink target (Option.some.inj linked)
  | case9 _ _ _ _ _ _ _ _ _ absent _ =>
    rw [← Except.ok.inj found]
    refine free.append fun target linked => ?_
    rw [absent] at linked
    cases linked
  | case10 | case11 | case12 => cases found

/-- A path whose last link is followed does not lead to a link. -/
theorem isLinkFree_of_place {path : Path} (placed : tree.place true path = .ok place) :
    tree.IsLinkFree place := by
  unfold FileTree.place at placed
  split_ifs at placed
  exact isLinkFree_of_follow (isLinkFree_nil tree) placed

/-- A lookup that meets no link and no parent segment ends where its segments say. -/
theorem follow_eq_append {followLast : Bool} {links : Nat}
    (named : ∀ part ∈ rest, part ≠ "." ∧ part ≠ "..")
    (free : tree.IsLinkFree (here ++ rest))
    (found : tree.follow followLast links here rest = .ok place) : place = here ++ rest := by
  induction rest generalizing here with
  | nil =>
    rw [follow] at found
    cases found
    rw [List.append_nil]
  | cons part rest ih =>
    obtain ⟨⟨notDot, sinks⟩, others⟩ := List.forall_mem_cons.mp named
    have next : here ++ part :: rest = here ++ [part] ++ rest := by simp
    rw [next] at free ⊢
    rw [follow_cons] at found
    split at found
    · rw [if_neg notDot, if_neg sinks] at found
      split at found
      · cases found
      split at found
      · next target linked => exact absurd linked (free _ (List.prefix_append _ _) target)
      · exact ih others free found
      · split at found
        · next last =>
          rw [List.isEmpty_iff.mp last, List.append_nil]
          exact (Except.ok.inj found).symm
        · cases found
    · cases found
    · cases found

/-- A lookup of a place that no link stands on the way to finds what is there. -/
theorem lookup_of_isLinkFree {found : List String} {entry : Entry} (named : IsNamed place)
    (free : tree.IsLinkFree place) (there : tree.lookup ⟨"/", place⟩ = .ok (found, entry)) :
    found = place := by
  obtain ⟨-, reached, -⟩ := follow_of_lookup there
  have onwards : tree.IsLinkFree ([] ++ place) := free
  exact follow_eq_append (fun part member => (named part member).2) onwards reached

/-! ## The path with every link followed -/

/-- The path that is found is an absolute one as it is read from a text. -/
def Reached.IsWritten : Reached → Prop
  | .place segments => ∀ part ∈ segments, Path.IsSegment part
  | .circular path => path.isAbsolute = true ∧ path.IsWritten

theorem isSegment_linkStart (written : ∀ part ∈ here, Path.IsSegment part) :
    ∀ part ∈ linkStart here target, Path.IsSegment part := by
  unfold linkStart
  split
  · exact fun part member => nomatch member
  · exact written

theorem isSegment_append (written : ∀ part ∈ here, Path.IsSegment part)
    (moves : ¬ (decide (part = "") || decide (part = ".")) = true) (slashless : '/' ∉ part.toList) :
    ∀ other ∈ here ++ [part], Path.IsSegment other := by
  have named : part ≠ "" ∧ part ≠ "." := by simpa using moves
  exact List.forall_mem_append.mpr ⟨written, by simpa using ⟨named.1, named.2, slashless⟩⟩

theorem isWritten_realFrom (opened : List (List String))
    (written : ∀ part ∈ here, Path.IsSegment part) (slashless : Path.Slashless rest) :
    (tree.realFrom opened here rest).IsWritten := by
  fun_induction FileTree.realFrom tree opened here rest with
  | case1 => exact written
  | case2 _ _ _ _ _ ih => exact ih written (List.forall_mem_cons.mp slashless).2
  | case3 _ _ _ _ ih =>
    exact ih (fun part member => written part (List.dropLast_subset _ member))
      (List.forall_mem_cons.mp slashless).2
  | case4 _ here part _ moves =>
    have ended := isSegment_append written moves (List.forall_mem_cons.mp slashless).1
    have top : (⟨"/", here ++ [part]⟩ : Path).IsWritten := ⟨.inr (.inl rfl), ended⟩
    exact ⟨Path.isAbsolute_joinText rfl _, Path.isWritten_joinText top _⟩
  | case5 opened here part rest _ _ target _ _ start middle reached ihThrough =>
    rename_i ih
    have through := ihThrough (isSegment_linkStart written) (Path.slashless_segments target)
    rw [reached] at through
    exact ih through (List.forall_mem_cons.mp slashless).2
  | case6 opened here part rest _ _ target _ _ start path reached =>
    rename_i ih
    have through := ih (isSegment_linkStart written) (Path.slashless_segments target)
    rw [reached] at through
    exact ⟨Path.isAbsolute_joinText through.1 _, Path.isWritten_joinText through.2 _⟩
  | case7 _ here part _ moves _ _ ih =>
    exact ih (isSegment_append written moves (List.forall_mem_cons.mp slashless).1)
      (List.forall_mem_cons.mp slashless).2

theorem isWritten_realPath {path : Path} (slashless : Path.Slashless (tree.absolute path)) :
    (tree.realPath path).isAbsolute = true ∧ (tree.realPath path).IsWritten := by
  have reached : (tree.realFrom [] [] (tree.absolute path)).IsWritten :=
    isWritten_realFrom [] (fun part member => nomatch member) slashless
  unfold realPath
  split
  · next segments found =>
    rw [found] at reached
    exact ⟨rfl, .inr (.inl rfl), reached⟩
  · next circular found =>
    rw [found] at reached
    exact ⟨by simpa [Path.isAbsolute] using reached.1, Path.isWritten_normal reached.2⟩

end DesignGraph.FileTree
