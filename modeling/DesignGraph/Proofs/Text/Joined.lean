import DesignGraph.Text.Line
import Mathlib.Data.List.Basic
import Mathlib.Data.List.Chain

/-!
# Joined texts

Pieces with one separator between them. Where none holds the separator, cutting finds them again.
Where no piece is empty either, the whole neither begins nor ends with a separator, and no two of
them stand side by side.
-/

namespace DesignGraph.Text

variable {separator c : Char} {front back piece : List Char} {pieces left right : List (List Char)}

theorem intercalate_cons (separator : Char) (piece : List Char) (others : List (List Char)) :
    [separator].intercalate (piece :: others) = piece ++ others.flatMap (separator :: ·) := by
  induction others generalizing piece with
  | nil => rw [List.intercalate_singleton, List.flatMap_nil, List.append_nil]
  | cons next others ih =>
    rw [List.intercalate_cons_cons, ih, List.append_assoc, List.flatMap_cons]
    rfl

theorem intercalate_append (given : left ≠ []) (more : right ≠ []) :
    [separator].intercalate (left ++ right) =
      [separator].intercalate left ++ separator :: [separator].intercalate right := by
  obtain ⟨first, left, rfl⟩ := List.exists_cons_of_ne_nil given
  obtain ⟨second, right, rfl⟩ := List.exists_cons_of_ne_nil more
  simp [intercalate_cons]

/-- Pieces that are joined pieces themselves can be taken apart first. -/
theorem intercalate_flatten {groups : List (List (List Char))}
    (given : ∀ group ∈ groups, group ≠ []) :
    [separator].intercalate groups.flatten =
      [separator].intercalate (groups.map [separator].intercalate) := by
  induction groups with
  | nil => rfl
  | cons group groups ih =>
    obtain ⟨first, others⟩ := List.forall_mem_cons.mp given
    cases groups with
    | nil => simp
    | cons next groups =>
      have more : (next :: groups).flatten ≠ [] := by
        obtain ⟨piece, rest, rfl⟩ := List.exists_cons_of_ne_nil (others next List.mem_cons_self)
        simp
      rw [List.flatten_cons, intercalate_append first more, ih others]
      simp [intercalate_cons]

theorem mem_intercalate (member : c ∈ [separator].intercalate pieces) :
    c = separator ∨ ∃ piece ∈ pieces, c ∈ piece := by
  cases pieces with
  | nil => cases member
  | cons piece others =>
    rw [intercalate_cons, List.mem_append, List.mem_flatMap] at member
    rcases member with first | ⟨other, listed, later⟩
    · exact .inr ⟨piece, List.mem_cons_self, first⟩
    · rcases List.mem_cons.mp later with same | within
      · exact .inl same
      · exact .inr ⟨other, List.mem_cons_of_mem _ listed, within⟩

theorem subset_intercalate (member : piece ∈ pieces) : piece ⊆ [separator].intercalate pieces := by
  obtain ⟨front, back, rfl⟩ := List.append_of_mem member
  intro c written
  cases front with
  | nil =>
    rw [List.nil_append, intercalate_cons]
    exact List.mem_append_left _ written
  | cons first front =>
    rw [List.cons_append, intercalate_cons, List.flatMap_append, List.flatMap_cons]
    simp [written]

theorem intercalate_ne_nil (given : ∀ piece ∈ pieces, piece ≠ []) (more : pieces ≠ []) :
    [separator].intercalate pieces ≠ [] := by
  obtain ⟨piece, others, rfl⟩ := List.exists_cons_of_ne_nil more
  rw [intercalate_cons]
  exact List.append_ne_nil_of_left_ne_nil (given piece List.mem_cons_self) _

theorem head?_intercalate_ne (given : ∀ piece ∈ pieces, piece ≠ [])
    (absent : ∀ piece ∈ pieces, separator ∉ piece) :
    ([separator].intercalate pieces).head? ≠ some separator := by
  cases pieces with
  | nil => simp
  | cons piece others =>
    obtain ⟨c, rest, rfl⟩ := List.exists_cons_of_ne_nil (given piece List.mem_cons_self)
    have other : c ≠ separator := by
      rintro rfl
      exact absent _ List.mem_cons_self List.mem_cons_self
    simpa [intercalate_cons] using other

theorem getLast?_intercalate_ne (given : ∀ piece ∈ pieces, piece ≠ [])
    (absent : ∀ piece ∈ pieces, separator ∉ piece) :
    ([separator].intercalate pieces).getLast? ≠ some separator := by
  induction pieces with
  | nil => simp
  | cons piece others ih =>
    obtain ⟨first, later⟩ := List.forall_mem_cons.mp given
    obtain ⟨here, behind⟩ := List.forall_mem_cons.mp absent
    cases others with
    | nil =>
      intro ends
      rw [List.intercalate_singleton] at ends
      exact here (List.mem_of_getLast? ends)
    | cons next others =>
      have more : [separator].intercalate (next :: others) ≠ [] :=
        intercalate_ne_nil later (List.cons_ne_nil _ _)
      rw [List.intercalate_cons_cons, List.append_assoc, List.getLast?_append_of_ne_nil _ (by simp),
        List.getLast?_append_of_ne_nil _ more]
      exact ih later behind

/-- No two separators stand side by side. -/
theorem isChain_intercalate (given : ∀ piece ∈ pieces, piece ≠ [])
    (absent : ∀ piece ∈ pieces, separator ∉ piece) :
    ([separator].intercalate pieces).IsChain fun x y => ¬ (x = separator ∧ y = separator) := by
  induction pieces with
  | nil => exact .nil
  | cons piece others ih =>
    obtain ⟨-, later⟩ := List.forall_mem_cons.mp given
    obtain ⟨here, behind⟩ := List.forall_mem_cons.mp absent
    have alone : piece.IsChain fun x y => ¬ (x = separator ∧ y = separator) := by
      refine (List.pairwise_of_forall_mem_list ?_).isChain
      rintro x member y - ⟨rfl, -⟩
      exact here member
    cases others with
    | nil => rwa [List.intercalate_singleton]
    | cons next others =>
      rw [List.intercalate_cons_cons, List.append_assoc, List.singleton_append]
      refine alone.append ((ih later behind).cons ?_) ?_
      · rintro y begins ⟨-, rfl⟩
        exact head?_intercalate_ne later behind begins
      · rintro x ends y - ⟨rfl, -⟩
        exact here (List.mem_of_getLast? ends)

/-! ## Cut texts -/

theorem cutAt_of_not_mem (absent : separator ∉ front) : cutAt separator front = [front] := by
  induction front with
  | nil => rfl
  | cons c front ih =>
    obtain ⟨other, rest⟩ := not_or.mp (mt List.mem_cons.mpr absent)
    simp only [cutAt, if_neg (Ne.symm other), ih rest]

theorem cutAt_append_cons (absent : separator ∉ front) (back : List Char) :
    cutAt separator (front ++ separator :: back) = front :: cutAt separator back := by
  induction front with
  | nil => simp [cutAt]
  | cons c front ih =>
    obtain ⟨other, rest⟩ := not_or.mp (mt List.mem_cons.mpr absent)
    simp only [List.cons_append, cutAt, if_neg (Ne.symm other), ih rest]

/-- Pieces without the separator are found again between the separators. -/
theorem cutAt_intercalate {pieces : List (List Char)} (given : pieces ≠ [])
    (absent : ∀ piece ∈ pieces, separator ∉ piece) :
    cutAt separator ([separator].intercalate pieces) = pieces := by
  induction pieces with
  | nil => exact absurd rfl given
  | cons piece pieces ih =>
    obtain ⟨first, others⟩ := List.forall_mem_cons.mp absent
    cases pieces with
    | nil => rw [List.intercalate_singleton, cutAt_of_not_mem first]
    | cons next pieces =>
      rw [List.intercalate_cons_cons, List.append_assoc, List.singleton_append,
        cutAt_append_cons first, ih (by simp) others]

theorem not_mem_of_mem_cutAt {cs : List Char} (member : piece ∈ cutAt separator cs) :
    separator ∉ piece := by
  induction cs generalizing piece with
  | nil =>
    rw [List.mem_singleton.mp member]
    exact List.not_mem_nil
  | cons c cs ih =>
    by_cases same : c = separator
    · simp only [cutAt, if_pos same, List.mem_cons] at member
      rcases member with rfl | later
      · exact List.not_mem_nil
      · exact ih later
    · simp only [cutAt, if_neg same] at member
      split at member
      · rw [List.mem_singleton.mp member, List.mem_singleton]
        exact Ne.symm same
      · next first rest cut =>
        rcases List.mem_cons.mp member with rfl | later
        · rw [List.mem_cons, not_or]
          exact ⟨Ne.symm same, ih (cut ▸ List.mem_cons_self)⟩
        · exact ih (cut ▸ List.mem_cons_of_mem _ later)

end DesignGraph.Text
