import DesignGraph.Compile.Construction
import DesignGraph.Proofs.Number.DecimalText

/-!
# Literals of numbers

An integer is written as it is. A text is read as a floating-point number first, so an integer that
is given as text keeps its value exactly if it is a floating-point number
(`integer_given_as_text_is_kept_iff`).
-/

namespace DesignGraph

open Binary64 (IsExact ofQuotient)
open Numeral (IsDecimalOf)

namespace Value

variable {s : String} {n : Int}

theorem coerceNumber_text {x : Binary64} (read : Numeral.read? s = some x) (integral : Bool) :
    (text s).coerceNumber integral = Quantum.ofBinary64? integral x := by
  simp only [coerceNumber, read, Option.bind_some]

/-- A whole number that rounding leaves finite stays whole. -/
theorem ofBinary64?_ofQuotient (integral negative : Bool) (w : Nat) :
    Quantum.ofBinary64? integral (ofQuotient negative w 1) =
      (ofQuotient negative w 1).whole?.map Quantum.whole := by
  unfold Quantum.ofBinary64?
  obtain tooGreat | ⟨v, whole, -⟩ := Binary64.exists_whole_of_ofQuotient negative w
  · rw [tooGreat]
    rfl
  · rw [Binary64.isFinite_of_whole? whole, whole]
    rfl

/-- An integer given as text is rounded. -/
theorem exists_coerceNumber_of_isDecimalOf (decimal : IsDecimalOf s.toList n) : ∃ negative,
    n = Binary64.signed negative n.natAbs ∧ ∀ integral, (text s).coerceNumber integral =
      (ofQuotient negative n.natAbs 1).whole?.map Quantum.whole := by
  obtain ⟨negative, read, sign⟩ := decimal.denotes.read
  refine ⟨negative, sign, fun integral => ?_⟩
  rw [coerceNumber_text read, ofBinary64?_ofQuotient]

/-- An integer is its own number. Given as text it is the same number, and has the same literal of
every numeric kind, exactly if it is a floating-point number; it is no number at all exactly if it
is too great for one. -/
theorem integer_given_as_text_is_kept_iff (decimal : IsDecimalOf s.toList n) :
    (∀ integral, (int n).coerceNumber integral = some (.whole n) ∧
      ((text s).coerceNumber integral = some (.whole n) ↔ IsExact n.natAbs) ∧
      ((text s).coerceNumber integral = none ↔ (2 ^ 54 - 1) * 2 ^ 970 ≤ n.natAbs)) ∧
    ∀ target kind, kind ≠ Primitive.string.name → kind ≠ Primitive.boolean.name →
      (Target.literal? target kind (text s) = Target.literal? target kind (int n) ↔
        IsExact n.natAbs) := by
  obtain ⟨negative, sign, rounded⟩ := exists_coerceNumber_of_isDecimalOf decimal
  have kept := @Binary64.whole?_ofQuotient_iff n.natAbs negative
  rw [← sign] at kept
  have same (integral : Bool) :
      (text s).coerceNumber integral = some (.whole n) ↔ IsExact n.natAbs := by
    rw [rounded, ← kept, Option.map_eq_some_iff]
    simp
  have lost (integral : Bool) :
      (text s).coerceNumber integral = none ↔ (2 ^ 54 - 1) * 2 ^ 970 ≤ n.natAbs := by
    rw [rounded, Option.map_eq_none_iff, ← @Binary64.ofQuotient_eq_infinite_iff _ negative]
    obtain tooGreat | ⟨v, whole, -⟩ := Binary64.exists_whole_of_ofQuotient negative n.natAbs
    · rw [tooGreat]
      exact iff_of_true rfl rfl
    · refine iff_of_false (by simp [whole]) fun tooGreat => ?_
      rw [tooGreat] at whole
      cases whole
  refine ⟨fun integral => ⟨rfl, same integral, lost integral⟩, fun target kind noText noTruth => ?_⟩
  rw [← same (target.isIntegral kind)]
  simp only [Target.literal?, if_neg noText, if_neg noTruth]
  change _ = some (toString n) ↔ _
  rw [rounded]
  cases (ofQuotient negative n.natAbs 1).whole? with
  | none => simp
  | some v =>
    simp only [Option.map_some, Option.some.injEq, Quantum.whole.injEq]
    exact ⟨Numeral.toString_int_inj, congrArg toString⟩

theorem quoted_width_is_kept : IsDecimalOf "1024".toList 1024 ∧
    (text "1024").coerceNumber true = some (.whole 1024) ∧
    Target.literal? .ios "int" (text "1024") = Target.literal? .ios "int" (int 1024) := by
  have decimal : IsDecimalOf "1024".toList 1024 := Numeral.isDecimalOf_toString 1024
  have small : IsExact (1024 : Int).natAbs := Binary64.isExact_of_lt (by decide)
  obtain ⟨coerced, literals⟩ := integer_given_as_text_is_kept_iff decimal
  exact ⟨decimal, (coerced true).2.1.mpr small,
    (literals .ios "int" (by decide) (by decide)).mpr small⟩

/-- One more than the greatest mantissa and not even: the text of it is read as another integer. -/
theorem quoted_odd_integer_changes : IsDecimalOf "9007199254740993".toList 9007199254740993 ∧
    (text "9007199254740993").coerceNumber false = some (.whole 9007199254740992) ∧
    (int 9007199254740993).coerceNumber false = some (.whole 9007199254740993) ∧
    Target.literal? .ios "int" (text "9007199254740993") = some "9007199254740992" ∧
    Target.literal? .ios "int" (int 9007199254740993) = some "9007199254740993" := by
  refine ⟨Numeral.isDecimalOf_toString 9007199254740993, ?_, rfl, ?_, ?_⟩
  · decide +kernel
  · decide +kernel
  · decide +kernel

end Value

end DesignGraph
