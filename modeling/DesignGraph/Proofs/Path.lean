import DesignGraph.Path
import DesignGraph.Proofs.Text.Joined

/-!
# Written paths

A path that was read from a text is read again from its written form. Parent segments are applied
one after the other, so what is put behind a path without any stays below it.
-/

namespace DesignGraph

namespace Path

variable {p : Path}

/-- A segment as the parts of a path are: not blank, no single dot, and without a slash. -/
def IsSegment (part : String) : Prop := part ≠ "" ∧ part ≠ "." ∧ '/' ∉ part.toList

/-- A path as it is read from a text. -/
structure IsWritten (p : Path) : Prop where
  anchored : p.anchor = "" ∨ p.anchor = "/" ∨ p.anchor = "//"
  segments : ∀ part ∈ p.parts, IsSegment part

theorem isSegment_of_mem_ofString {s part : String} (member : part ∈ (ofString s).parts) :
    IsSegment part := by
  simp only [ofString, List.mem_map, List.mem_filter] at member
  obtain ⟨piece, ⟨cut, given⟩, rfl⟩ := member
  simp only [ne_eq, decide_not, Bool.and_eq_true, Bool.not_eq_true', decide_eq_false_iff_not]
    at given
  refine ⟨?_, ?_, ?_⟩
  · rw [Ne, ← String.toList_inj, String.toList_ofList]
    exact given.1
  · rw [Ne, ← String.toList_inj, String.toList_ofList]
    exact given.2
  · rw [String.toList_ofList]
    exact Text.not_mem_of_mem_cutAt cut

theorem isWritten_ofString (s : String) : (ofString s).IsWritten where
  anchored := by
    unfold ofString anchorOf
    split <;> simp
  segments _ := isSegment_of_mem_ofString

/-- The first part starts with no slash. -/
theorem head?_intercalate_ne {parts : List String} (segments : ∀ part ∈ parts, IsSegment part) :
    (['/'].intercalate (parts.map String.toList)).head? ≠ some '/' := by
  apply Text.head?_intercalate_ne
  · exact List.forall_mem_map.mpr fun part member =>
      mt String.toList_eq_nil_iff.mp (segments part member).1
  · exact List.forall_mem_map.mpr fun part member => (segments part member).2.2

theorem anchorOf_append {anchor : String} (anchored : anchor = "" ∨ anchor = "/" ∨ anchor = "//")
    {body : List Char} (slashless : body.head? ≠ some '/') :
    anchorOf (anchor.toList ++ body) = anchor := by
  cases body with
  | nil => rcases anchored with rfl | rfl | rfl <;> rfl
  | cons c body =>
    have notSlash : c ≠ '/' := by simpa using slashless
    rcases anchored with rfl | rfl | rfl <;> simp [anchorOf, notSlash]

/-- The parts that a written path has. -/
theorem parts_of_intercalate {parts : List String} (segments : ∀ part ∈ parts, IsSegment part) :
    ((Text.cutAt '/' (['/'].intercalate (parts.map String.toList))).filter
      fun cs => cs ≠ [] && cs ≠ ['.']).map String.ofList = parts := by
  cases parts with
  | nil => rfl
  | cons part parts =>
    have slashless : ∀ piece ∈ (part :: parts).map String.toList, '/' ∉ piece :=
      List.forall_mem_map.mpr fun other member => (segments other member).2.2
    rw [Text.cutAt_intercalate (by simp) slashless, List.filter_eq_self.mpr, List.map_map]
    · simp [Function.comp_def]
    · intro piece member
      obtain ⟨part, listed, rfl⟩ := List.mem_map.mp member
      obtain ⟨given, notDot, -⟩ := segments part listed
      have notDotChars : part.toList ≠ ['.'] := fun same => notDot (String.toList_inj.mp same)
      simp [given, notDotChars]

/-- Slashes in front of a path are blank pieces. -/
theorem cutAt_anchor_append {anchor : String}
    (anchored : anchor = "" ∨ anchor = "/" ∨ anchor = "//") (body : List Char) :
    (Text.cutAt '/' (anchor.toList ++ body)).filter (fun cs => cs ≠ [] && cs ≠ ['.']) =
      (Text.cutAt '/' body).filter fun cs => cs ≠ [] && cs ≠ ['.'] := by
  rcases anchored with rfl | rfl | rfl <;> simp [Text.cutAt]

/-- A path is read again from its written form. -/
theorem ofString_toText (written : p.IsWritten) : ofString p.toText = p := by
  obtain ⟨anchor, parts⟩ := p
  obtain ⟨anchored, segments⟩ := written
  dsimp only at anchored segments
  unfold toText
  split
  · next blank =>
    simp only [Bool.and_eq_true, decide_eq_true_eq, List.isEmpty_iff] at blank
    obtain ⟨rfl, rfl⟩ := blank
    rfl
  · have spelled : (anchor ++ "/".intercalate parts).toList =
        anchor.toList ++ ['/'].intercalate (parts.map String.toList) := by
      rw [String.toList_append, String.toList_intercalate]
      rfl
    rw [ofString, spelled, anchorOf_append anchored (head?_intercalate_ne segments),
      cutAt_anchor_append anchored, parts_of_intercalate segments]

/-! ## Parent segments -/

@[simp] theorem anchor_normalStep (p : Path) (part : String) :
    (p.normalStep part).anchor = p.anchor := by
  unfold normalStep
  split <;> rfl

theorem anchor_foldl_normalStep (p : Path) (parts : List String) :
    (parts.foldl normalStep p).anchor = p.anchor := by
  induction parts generalizing p with
  | nil => rfl
  | cons part parts ih => rw [List.foldl_cons, ih, anchor_normalStep]

@[simp] theorem anchor_normal (p : Path) : p.normal.anchor = p.anchor :=
  anchor_foldl_normalStep _ _

/-- Segments that do not lead upwards are put behind the path. -/
theorem foldl_normalStep_of_not_mem {parts : List String} (below : ".." ∉ parts) (p : Path) :
    parts.foldl normalStep p = { p with parts := p.parts ++ parts } := by
  induction parts generalizing p with
  | nil => rw [List.foldl_nil, List.append_nil]
  | cons part parts ih =>
    obtain ⟨other, rest⟩ := not_or.mp (mt List.mem_cons.mpr below)
    rw [List.foldl_cons, ih rest, normalStep, if_pos (by simp [Ne.symm other])]
    simp

/-- What is put behind a path without leading upwards stays below it. -/
theorem covers_normal_of_below {front back : Path} (anchored : back.anchor = front.anchor)
    {rest : List String} (onwards : back.parts = front.parts ++ rest) (below : ".." ∉ rest) :
    front.normal.covers back.normal = true := by
  have continued : back.normal = { front.normal with parts := front.normal.parts ++ rest } := by
    unfold normal
    rw [onwards, anchored, List.foldl_append, foldl_normalStep_of_not_mem below]
  simp [covers, continued]

/-! ## Written paths from written paths -/

/-- No segment holds a slash, as in every text that is cut at its slashes. -/
def Slashless (parts : List String) : Prop := ∀ part ∈ parts, '/' ∉ part.toList

theorem slashless_segments (s : String) : Slashless (segments s) := by
  refine List.forall_mem_map.mpr fun piece cut => ?_
  rw [String.toList_ofList]
  exact Text.not_mem_of_mem_cutAt cut

theorem isWritten_joinText (written : p.IsWritten) (s : String) : (p.joinText s).IsWritten := by
  unfold joinText join
  split
  · exact isWritten_ofString s
  · exact ⟨written.anchored, List.forall_mem_append.mpr
      ⟨written.segments, (isWritten_ofString s).segments⟩⟩

theorem isAbsolute_joinText (absolute : p.isAbsolute = true) (s : String) :
    (p.joinText s).isAbsolute = true := by
  unfold joinText join
  split
  · assumption
  · exact absolute

theorem isWritten_normal (written : p.IsWritten) : p.normal.IsWritten := by
  have taken : ∀ (parts : List String) (q : Path), (∀ part ∈ q.parts, IsSegment part) →
      (∀ part ∈ parts, IsSegment part) →
      ∀ part ∈ (parts.foldl normalStep q).parts, IsSegment part := by
    intro parts
    induction parts with
    | nil => exact fun _ before _ => before
    | cons part parts ih =>
      intro q before given
      obtain ⟨first, others⟩ := List.forall_mem_cons.mp given
      refine ih _ ?_ others
      unfold normalStep
      split
      · exact List.forall_mem_append.mpr ⟨before, by simpa using first⟩
      · exact fun other member => before other (List.dropLast_subset _ member)
  exact ⟨by rw [anchor_normal]; exact written.anchored,
    taken _ _ (fun _ member => nomatch member) written.segments⟩

/-! ## Suffixes -/

@[simp] theorem anchor_withoutSuffix (p : Path) : p.withoutSuffix.anchor = p.anchor := by
  unfold withoutSuffix
  dsimp only
  split_ifs <;> rfl

theorem parent_withoutSuffix (p : Path) : p.withoutSuffix.parent = p.parent := by
  unfold withoutSuffix
  dsimp only
  split_ifs
  · rfl
  · simp [parent]

/-- A suffix is never the whole name. -/
theorem length_suffixOf_lt {name : List Char} (given : name ≠ []) :
    (suffixOf name).length < name.length := by
  unfold suffixOf
  dsimp only
  split_ifs with none_found
  · exact List.length_pos_iff.mpr given
  · simp only [Bool.or_eq_true, decide_eq_true_eq, not_or] at none_found
    rw [List.length_cons]
    omega

/-- A segment without its suffix is not blank. -/
theorem not_mem_withoutSuffix (given : "" ∉ p.parts) : "" ∉ p.withoutSuffix.parts := by
  unfold withoutSuffix
  dsimp only
  split_ifs with top
  · exact given
  · have some_ : p.parts ≠ [] := by simpa using top
    have last : p.name ∈ p.parts := by
      rw [name, List.getLast?_eq_some_getLast some_]
      exact List.getLast_mem some_
    have named : p.name ≠ "" := fun blank => given (blank ▸ last)
    intro blank
    rcases List.mem_append.mp blank with above | stem
    · exact given (List.dropLast_subset _ above)
    · have nothing := String.ofList_eq_empty_iff.mp (List.mem_singleton.mp stem).symm
      rw [List.take_eq_nil_iff] at nothing
      have spelled : p.name.toList ≠ [] := mt String.toList_eq_nil_iff.mp named
      have shorter := length_suffixOf_lt spelled
      rcases nothing with whole | blank
      · omega
      · exact spelled blank

end Path

end DesignGraph
