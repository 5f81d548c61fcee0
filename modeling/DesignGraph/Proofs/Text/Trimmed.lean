import DesignGraph.Text.Blank
import Mathlib.Data.List.Basic
import Mathlib.Data.List.TakeWhile

/-!
# Trimmed texts

What is dropped from the ends of a text, and what trimming leaves: a text that neither begins nor
ends with a blank, which a second trimming leaves as it is.
-/

namespace DesignGraph.Text

variable {cs front blanks : List Char}

/-- A text that neither begins nor ends with a blank. -/
structure IsTrimmed (cs : List Char) : Prop where
  first : ∀ c ∈ cs.head?, isBlank c = false
  last : ∀ c ∈ cs.getLast?, isBlank c = false

theorem dropWhile_of_head? {inClass : Char → Bool} (first : ∀ c ∈ cs.head?, inClass c = false) :
    cs.dropWhile inClass = cs := by
  cases cs with
  | nil => rfl
  | cons c cs => exact List.dropWhile_cons_of_neg (by simp [first c rfl])

theorem head?_dropWhile (inClass : Char → Bool) (cs : List Char) :
    ∀ c ∈ (cs.dropWhile inClass).head?, inClass c = false := by
  intro c found
  have stops := List.head?_dropWhile_not inClass cs
  rw [Option.mem_def.mp found] at stops
  simpa using stops

/-- Blanks behind a text that does not end with one are dropped from its end. -/
theorem dropWhile_reverse_append (last : ∀ c ∈ front.getLast?, isBlank c = false)
    (blank : ∀ c ∈ blanks, isBlank c = true) :
    (front ++ blanks).reverse.dropWhile isBlank = front.reverse := by
  rw [List.reverse_append, List.dropWhile_append_of_pos]
  · exact dropWhile_of_head? (by simpa using last)
  · simpa using blank

theorem isTrimmed_trim (cs : List Char) : IsTrimmed (trim cs) where
  first := by
    -- What is dropped from the end leaves the beginning, or nothing at all.
    have kept : trim cs <+: cs.dropWhile isBlank := by
      rw [← List.reverse_suffix, trim, trimBy, List.reverse_reverse]
      exact List.dropWhile_suffix isBlank
    intro c found
    obtain ⟨tail, split⟩ := kept
    refine head?_dropWhile isBlank cs c ?_
    rw [← split, List.head?_append, Option.mem_def.mp found]
    rfl
  last := by
    rw [trim, trimBy, List.getLast?_reverse]
    exact head?_dropWhile isBlank _

theorem trimBy_of_ends {inClass : Char → Bool} (first : ∀ c ∈ cs.head?, inClass c = false)
    (last : ∀ c ∈ cs.getLast?, inClass c = false) : trimBy inClass cs = cs := by
  rw [trimBy, dropWhile_of_head? first, dropWhile_of_head? (by simpa using last),
    List.reverse_reverse]

theorem trim_of_isTrimmed (trimmed : IsTrimmed cs) : trim cs = cs :=
  trimBy_of_ends trimmed.first trimmed.last

theorem trimBy_cons {inClass : Char → Bool} {c : Char} (inside : inClass c = true)
    (cs : List Char) : trimBy inClass (c :: cs) = trimBy inClass cs := by
  rw [trimBy, List.dropWhile_cons_of_pos inside, trimBy]

theorem trimBy_append {inClass : Char → Bool} {back : List Char} (cs : List Char)
    (inside : ∀ c ∈ back, inClass c = true) : trimBy inClass (cs ++ back) = trimBy inClass cs := by
  have reversed : ∀ c ∈ back.reverse, inClass c = true := by simpa using inside
  rw [trimBy, List.dropWhile_append, trimBy]
  split
  · next dropped =>
    rw [List.dropWhile_eq_nil_iff.mpr inside, List.isEmpty_iff.mp dropped]
  · rw [List.reverse_append, List.dropWhile_append_of_pos reversed]

end DesignGraph.Text
