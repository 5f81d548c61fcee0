import DesignGraph.Number.Shortest
import Mathlib.Tactic.SplitIfs

/-!
# Texts of numbers

The texts of integers and of floating-point numbers have few characters, and those of finite
floating-point numbers always show that they are no integers.
-/

namespace DesignGraph

/-- A character that texts of numbers have. -/
def IsNumberChar (c : Char) : Prop :=
  c.isDigit = true ∨ c ∈ ['+', '-', '.', 'e', 'i', 'n', 'f', 'a']

instance : DecidablePred IsNumberChar := fun c =>
  inferInstanceAs (Decidable (c.isDigit = true ∨ c ∈ ['+', '-', '.', 'e', 'i', 'n', 'f', 'a']))

/-- A text with no other characters than those of numbers. -/
def IsNumberText (s : String) : Prop := ∀ c ∈ s.toList, IsNumberChar c

instance (s : String) : Decidable (IsNumberText s) :=
  List.decidableBAll IsNumberChar s.toList

namespace IsNumberText

theorem append {s t : String} (first : IsNumberText s) (second : IsNumberText t) :
    IsNumberText (s ++ t) := by
  unfold IsNumberText
  rw [String.toList_append]
  exact List.forall_mem_append.mpr ⟨first, second⟩

theorem ofList {cs : List Char} (each : ∀ c ∈ cs, IsNumberChar c) :
    IsNumberText (String.ofList cs) := by
  unfold IsNumberText
  rwa [String.toList_ofList]

theorem toString_nat (n : Nat) : IsNumberText (toString n) := by
  rw [Nat.toString_eq_ofList_toDigits]
  exact ofList fun c member => .inl (Nat.isDigit_of_mem_toDigits (by decide) (by decide) member)

theorem toString_int (n : Int) : IsNumberText (toString n) := by
  cases n with
  | ofNat n => exact toString_nat n
  | negSucc n => exact append (s := "-") (by decide) (toString_nat _)

theorem exponentText (exponent : Int) : IsNumberText (Binary64.exponentText exponent) := by
  have digits := toString_nat exponent.natAbs
  unfold Binary64.exponentText
  refine append ?_ ?_
  · split_ifs
    · decide
    · decide
  · split_ifs
    · exact append (by decide) digits
    · exact digits

theorem layout {digits : List Char} (each : ∀ c ∈ digits, IsNumberChar c) (leading : Int) :
    IsNumberText (Binary64.layout digits leading) := by
  have zeros : ∀ count, ∀ c ∈ List.replicate count '0', IsNumberChar c := by
    intro count c member
    rw [List.eq_of_mem_replicate member]
    decide
  have point : IsNumberChar '.' := by decide
  unfold Binary64.layout
  dsimp only
  split_ifs
  · exact append (by decide) (ofList (List.forall_mem_append.mpr ⟨zeros _, each⟩))
  · exact append (ofList (List.forall_mem_append.mpr ⟨each, zeros _⟩)) (by decide)
  · refine ofList (List.forall_mem_append.mpr ⟨?_, List.forall_mem_cons.mpr ⟨point, ?_⟩⟩)
    · exact fun c member => each c (List.mem_of_mem_take member)
    · exact fun c member => each c (List.mem_of_mem_drop member)
  · cases digits with
    | nil => exact ofList (List.forall_mem_nil _)
    | cons digit rest =>
      obtain ⟨first, others⟩ := List.forall_mem_cons.mp each
      cases rest with
      | nil =>
        refine append ?_ (exponentText leading)
        simpa [IsNumberText] using first
      | cons next rest =>
        refine append (ofList ?_) (exponentText leading)
        exact List.forall_mem_cons.mpr ⟨first, List.forall_mem_cons.mpr ⟨point, others⟩⟩

theorem sign (negative : Bool) : IsNumberText (if negative then "-" else "") := by
  cases negative
  · decide
  · decide

theorem toText (x : Binary64) : IsNumberText x.toText := by
  cases x with
  | nan => decide
  | infinite negative => cases negative <;> decide
  | finite negative mantissa exponent =>
    unfold Binary64.toText
    dsimp only
    by_cases zero : mantissa = 0
    · rw [if_pos zero]
      exact append (sign negative) (by decide)
    · rw [if_neg zero]
      refine append (sign negative) (layout (fun c member => ?_) _)
      refine toString_nat (Binary64.shortest mantissa exponent).digits c ?_
      unfold Binary64.dropTrailingZeros at member
      rw [List.mem_reverse] at member
      exact List.mem_reverse.mp ((List.dropWhile_sublist _).subset member)

end IsNumberText

/-! ## Integers and other numbers -/

theorem toString_nat_inj {m n : Nat} (same : toString m = toString n) : m = n := by
  rw [Nat.toString_eq_ofList_toDigits, Nat.toString_eq_ofList_toDigits, String.ofList_inj] at same
  have values := congrArg (Nat.ofDigitChars 10 · 0) same
  simpa only [Nat.ofDigitChars_toDigits (by decide : 1 < 10) (Nat.le_refl 10)] using values

/-- The text of an integer consists of digits behind an optional sign. -/
theorem chars_toString_int (n : Int) :
    (∀ c ∈ (toString n).toList, c.isDigit = true ∨ c = '-') ∧
      ∃ c ∈ (toString n).toList, c.isDigit = true := by
  have digits : ∀ n : Nat, (∀ c ∈ (toString n).toList, c.isDigit = true) ∧
      ∃ c ∈ (toString n).toList, c.isDigit = true := by
    intro n
    have each : ∀ c ∈ (toString n).toList, c.isDigit = true := by
      rw [Nat.toString_eq_ofList_toDigits, String.toList_ofList]
      exact fun c member => Nat.isDigit_of_mem_toDigits (by decide) (by decide) member
    have notEmpty : (toString n).toList ≠ [] := by
      rw [Nat.toString_eq_ofList_toDigits, String.toList_ofList]
      exact List.ne_nil_of_length_pos Nat.length_toDigits_pos
    obtain ⟨c, member⟩ := List.exists_mem_of_ne_nil _ notEmpty
    exact ⟨each, c, member, each c member⟩
  cases n with
  | ofNat n =>
    obtain ⟨each, some⟩ := digits n
    exact ⟨fun c member => .inl (each c member), some⟩
  | negSucc n =>
    obtain ⟨each, c, member, isDigit⟩ := digits (n + 1)
    have text : (toString (Int.negSucc n)).toList = '-' :: (toString (n + 1)).toList := by
      change ("-" ++ toString (n + 1)).toList = _
      rw [String.toList_append]
      rfl
    rw [text]
    refine ⟨List.forall_mem_cons.mpr ⟨.inr rfl, fun c member => .inl (each c member)⟩, c, ?_,
      isDigit⟩
    exact List.mem_cons_of_mem _ member

/-- A layout has a point or an exponent, unless there are no digits. -/
theorem Binary64.layout_marked (digits : List Char) (leading : Int) :
    layout digits leading = "" ∨ '.' ∈ (layout digits leading).toList ∨
      'e' ∈ (layout digits leading).toList := by
  have exponent : 'e' ∈ (exponentText leading).toList := by
    unfold exponentText
    rw [String.toList_append, List.mem_append]
    refine .inl ?_
    split_ifs
    · decide
    · decide
  unfold layout
  dsimp only
  split_ifs
  · refine .inr (.inl ?_)
    rw [String.toList_append, List.mem_append]
    exact .inl (by decide)
  · refine .inr (.inl ?_)
    rw [String.toList_append, List.mem_append]
    exact .inr (by decide)
  · refine .inr (.inl ?_)
    rw [String.toList_ofList]
    exact List.mem_append_right _ List.mem_cons_self
  · cases digits with
    | nil => exact .inl rfl
    | cons digit rest =>
      refine .inr (.inr ?_)
      cases rest with
      | nil =>
        rw [String.toList_append, List.mem_append]
        exact .inr exponent
      | cons next rest =>
        rw [String.toList_append, List.mem_append]
        exact .inr exponent

/-- No finite floating-point number is written as an integer. -/
theorem Binary64.toText_ne_toString (negative : Bool) (mantissa : Nat) (exponent n : Int) :
    (finite negative mantissa exponent).toText ≠ toString n := by
  obtain ⟨each, c, listed, isDigit⟩ := chars_toString_int n
  have unmarked : ∀ mark ∈ ['.', 'e'], mark ∉ (toString n).toList := by
    intro mark isMark member
    have allowed := each mark member
    revert allowed
    obtain rfl | rfl : mark = '.' ∨ mark = 'e' := by simpa using isMark
    · decide
    · decide
  intro same
  rw [← same] at unmarked listed
  unfold toText at unmarked listed
  dsimp only at unmarked listed
  by_cases zero : mantissa = 0
  · rw [if_pos zero] at unmarked
    refine unmarked '.' (by decide) ?_
    rw [String.toList_append, List.mem_append]
    exact .inr (by decide)
  · rw [if_neg zero] at unmarked listed
    simp only [String.toList_append, List.mem_append] at unmarked listed
    obtain empty | point | mark := layout_marked (dropTrailingZeros
      (toString (shortest mantissa exponent).digits).toList)
      ((shortest mantissa exponent).exponent +
        (toString (shortest mantissa exponent).digits).toList.length - 1)
    · rw [empty] at listed
      obtain sign | none := listed
      · cases negative
        · cases sign
        · rw [List.mem_singleton.mp sign] at isDigit
          exact absurd isDigit (by decide)
      · cases none
    · exact unmarked '.' (by decide) (.inr point)
    · exact unmarked 'e' (by decide) (.inr mark)

end DesignGraph
