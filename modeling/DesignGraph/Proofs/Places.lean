import DesignGraph.Proofs.Stores

/-!
# Where lookups end

A lookup that ends at a place has followed every link to there, so the place is that of the path
with every link followed. What stands in the way of that are links alone, so it is told before
anything is stored.
-/

namespace DesignGraph.FileTree

variable {tree other : FileTree} {here front back rest place middle : List String} {n : Nat}

/-- Segments lead somewhere piece by piece. -/
theorem Leads.split (leads : tree.Leads n here (front ++ back) place) : ∃ m k middle,
    tree.Leads m here front middle ∧ tree.Leads k middle back place := by
  induction front generalizing n here with
  | nil => exact ⟨0, n, here, .done here, leads⟩
  | cons part front ih =>
    cases leads with
    | stay stays onwards =>
      obtain ⟨m, k, middle, first, second⟩ := ih onwards
      exact ⟨m + 1, k, middle, .stay stays first, second⟩
    | rise onwards =>
      obtain ⟨m, k, middle, first, second⟩ := ih onwards
      exact ⟨m + 1, k, middle, .rise first, second⟩
    | enter moves sinks plain onwards =>
      obtain ⟨m, k, middle, first, second⟩ := ih onwards
      exact ⟨m + 1, k, middle, .enter moves sinks plain first, second⟩
    | link moves sinks linked through onwards =>
      obtain ⟨m, k, middle, first, second⟩ := ih onwards
      exact ⟨_, k, middle, .link moves sinks linked through first, second⟩

/-- Blank segments and dots lead nowhere. -/
theorem leads_of_filter
    (leads : tree.Leads n here (rest.filter fun part => part ≠ "" ∧ part ≠ ".") place) :
    ∃ m, tree.Leads m here rest place := by
  induction rest generalizing n here with
  | nil => exact ⟨n, leads⟩
  | cons part rest ih =>
    by_cases stays : part = "" ∨ part = "."
    · rw [List.filter_cons_of_neg (by simpa [or_iff_not_imp_left] using stays)] at leads
      obtain ⟨m, onwards⟩ := ih leads
      exact ⟨m + 1, .stay stays onwards⟩
    · rw [List.filter_cons_of_pos (by simpa using stays)] at leads
      cases leads with
      | stay stays' => exact absurd stays' stays
      | rise onwards =>
        obtain ⟨m, onwards⟩ := ih onwards
        exact ⟨m + 1, .rise onwards⟩
      | enter moves sinks plain onwards =>
        obtain ⟨m, onwards⟩ := ih onwards
        exact ⟨m + 1, .enter moves sinks plain onwards⟩
      | link moves sinks linked through onwards =>
        obtain ⟨m, onwards⟩ := ih onwards
        exact ⟨_, .link moves sinks linked through onwards⟩

theorem parts_ofString (s : String) :
    (Path.ofString s).parts = (Path.segments s).filter fun part => part ≠ "" ∧ part ≠ "." := by
  rw [Path.segments, List.filter_map]
  refine congrArg (List.map String.ofList) (List.filter_congr fun piece _ => ?_)
  have blank : String.ofList piece = "" ↔ piece = [] := by
    rw [← String.toList_inj, String.toList_ofList]
    rfl
  have dot : String.ofList piece = "." ↔ piece = ['.'] := by
    rw [← String.toList_inj, String.toList_ofList]
    rfl
  simp [blank, dot]

/-- A lookup ends where its segments lead. -/
theorem leads_of_follow {links : Nat} (given : ∀ part ∈ rest, part ≠ "")
    (found : tree.follow true links here rest = .ok place) : ∃ n, tree.Leads n here rest place := by
  fun_induction FileTree.follow tree true links here rest with
  | case1 links here =>
    rw [← Except.ok.inj found]
    exact ⟨0, .done here⟩
  | case2 links here rest inside ih =>
    obtain ⟨n, onwards⟩ := ih (List.forall_mem_cons.mp given).2 found
    exact ⟨n + 1, .stay (.inr rfl) onwards⟩
  | case3 links here rest inside _ ih =>
    obtain ⟨n, onwards⟩ := ih (List.forall_mem_cons.mp given).2 found
    exact ⟨n + 1, .rise onwards⟩
  | case4 | case6 | case10 | case11 | case12 => cases found
  | case5 _ _ _ _ _ _ _ _ _ _ _ last => simp at last
  | case7 here part rest inside moves sinks short next target linked _ links jump ih =>
    obtain ⟨notBlank, others⟩ := List.forall_mem_cons.mp given
    obtain ⟨n, leads⟩ := ih (List.forall_mem_append.mpr
      ⟨fun part member => (Path.isSegment_of_mem_ofString member).1, others⟩) found
    obtain ⟨m, k, middle, first, onwards⟩ := leads.split
    rw [parts_ofString] at first
    obtain ⟨m, through⟩ := leads_of_filter first
    exact ⟨_, .link (by simp [notBlank, moves]) sinks linked through onwards⟩
  | case8 links here part rest inside moves sinks short next entry noLink there ih =>
    obtain ⟨notBlank, others⟩ := List.forall_mem_cons.mp given
    obtain ⟨n, onwards⟩ := ih others found
    refine ⟨n + 1, .enter (by simp [notBlank, moves]) sinks (fun target linked => ?_) onwards⟩
    rw [there] at linked
    exact noLink target (Option.some.inj linked)
  | case9 links here part rest inside moves sinks short next absent last =>
    have notBlank := (List.forall_mem_cons.mp given).1
    obtain rfl := List.isEmpty_iff.mp last
    rw [← Except.ok.inj found]
    refine ⟨1, .enter (by simp [notBlank, moves]) sinks (fun target linked => ?_) (.done _)⟩
    rw [absent] at linked
    cases linked

/-- Where segments lead is a matter of links. -/
theorem Leads.of_link_iff (leads : other.Leads n here rest place)
    (same : ∀ {place target}, other.entry? place = some (.link target) ↔
      tree.entry? place = some (.link target)) : tree.Leads n here rest place := by
  induction leads with
  | done here => exact .done here
  | stay stays _ ih => exact .stay stays ih
  | rise _ ih => exact .rise ih
  | enter moves sinks plain _ ih =>
    exact .enter moves sinks (fun target linked => plain target (same.mpr linked)) ih
  | link moves sinks linked _ _ ihThrough ih =>
    exact .link moves sinks (same.mp linked) ihThrough ih

theorem blankless_joinText {path : Path} (blankless : "" ∉ tree.absolute path) (s : String) :
    "" ∉ tree.absolute (path.joinText s) := by
  have segments : "" ∉ (Path.ofString s).parts := fun blank =>
    (Path.isSegment_of_mem_ofString blank).1 rfl
  unfold Path.joinText Path.join
  split_ifs with absolute
  · rw [FileTree.absolute, if_pos absolute]
    exact segments
  · rw [absolute_eq_append] at blankless ⊢
    change "" ∉ _ ++ (path.parts ++ (Path.ofString s).parts)
    rw [← List.append_assoc]
    exact List.not_mem_append blankless segments

theorem blankless_withoutSuffix {path : Path} (blankless : "" ∉ tree.absolute path) :
    "" ∉ tree.absolute path.withoutSuffix := by
  have same : path.withoutSuffix.isAbsolute = path.isAbsolute := by
    rw [Path.isAbsolute, Path.isAbsolute, Path.anchor_withoutSuffix]
  rw [absolute_eq_append, List.mem_append, not_or] at blankless
  rw [absolute_eq_append, same]
  exact List.not_mem_append blankless.1 (Path.not_mem_withoutSuffix blankless.2)

/-- A path ends, whatever has been stored, where it ended with every link followed before. -/
theorem Keeps.realPath_of_place (keeps : tree.Keeps other) {path : Path}
    (blankless : "" ∉ tree.absolute path)
    (placed : other.place true path = .ok place) : tree.realPath path = ⟨"/", place⟩ := by
  have given : ∀ part ∈ tree.absolute path, part ≠ "" := by
    rintro part member rfl
    exact blankless member
  have same : other.absolute path = tree.absolute path := by
    simp only [FileTree.absolute, keeps.workingDirectory_eq]
  unfold FileTree.place at placed
  split_ifs at placed
  rw [same] at placed
  obtain ⟨n, leads⟩ := leads_of_follow given placed
  exact realPath_of_leads (leads.of_link_iff keeps.link_iff)

/-- A lookup goes on straight from where it has come. -/
theorem follow_append {links : Nat} (found : tree.follow true links here front = .ok place)
    (straight : tree.leadsStraight place back = true) :
    tree.follow true links here (front ++ back) = .ok (place ++ back) := by
  fun_induction FileTree.follow tree true links here front with
  | case1 links here =>
    rw [← Except.ok.inj found] at straight ⊢
    exact follow_of_leadsStraight straight true links
  | case2 links here rest inside ih =>
    rw [List.cons_append, follow_cons, inside]
    exact ih found
  | case3 links here rest inside _ ih =>
    rw [List.cons_append, follow_cons, inside]
    exact ih found
  | case4 | case6 | case10 | case11 | case12 => cases found
  | case5 _ _ _ _ _ _ _ _ _ _ _ last => simp at last
  | case7 here part rest inside moves sinks short next target linked _ links jump ih =>
    rw [List.cons_append, follow_cons_name tree _ _ _ inside moves sinks short, linked]
    have onwards := ih found
    rw [List.append_assoc] at onwards
    simpa using onwards
  | case8 links here part rest inside moves sinks short next entry noLink there ih =>
    rw [List.cons_append, follow_cons_name tree _ _ _ inside moves sinks short, there]
    cases entry with
    | link target => exact (noLink target rfl).elim
    | directory => exact ih found
    | file => exact ih found
  | case9 links here part rest inside moves sinks short next absent last =>
    obtain rfl := List.isEmpty_iff.mp last
    rw [← Except.ok.inj found] at straight ⊢
    cases back with
    | nil =>
      rw [List.append_nil, List.append_nil,
        follow_cons_name tree _ _ _ inside moves sinks short, absent]
      rfl
    | cons part back =>
      -- Nothing is straight behind what is missing.
      obtain ⟨inside, -⟩ := leadsStraight_cons_iff.mp straight
      rw [absent] at inside
      cases inside

end DesignGraph.FileTree
