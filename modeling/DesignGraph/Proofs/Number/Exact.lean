import DesignGraph.Proofs.Number.Rounding

/-!
# Whole numbers that rounding keeps

A whole number has a floating-point number of its own if 53 bits and zeros behind them make it up.
Rounding keeps these whole numbers and no others (`whole?_ofQuotient_iff`), and there is nothing to
round to from half a last place below `2 ^ 1024` on (`ofQuotient_eq_infinite_iff`). A decimal whose
value is a whole number is read as that number rounded, however it is written
(`ofDecimal_of_whole`).
-/

namespace DesignGraph.Binary64

variable {w : Nat} {negative : Bool}

/-- The whole number is a floating-point number. -/
def IsExact (w : Nat) : Prop := ∃ m e, m < 2 ^ 53 ∧ e ≤ 971 ∧ w = m * 2 ^ e

theorem isExact_of_lt (small : w < 2 ^ 53) : IsExact w :=
  ⟨w, 0, small, Nat.zero_le _, by rw [Nat.pow_zero, Nat.mul_one]⟩

/-- A great whole number of this kind has all its bits. -/
theorem IsExact.exists_normal (isExact : IsExact w) (great : 2 ^ 53 ≤ w) :
    ∃ m e, 2 ^ 52 ≤ m ∧ m < 2 ^ 53 ∧ e ≤ 971 ∧ w = m * 2 ^ e := by
  obtain ⟨m, e, small, inRange, rfl⟩ := isExact
  have positive : m ≠ 0 := by
    rintro rfl
    simp at great
  have bits : m.log2 < 53 := (Nat.log2_lt positive).mpr small
  have low := Nat.log2_self_le positive
  have high : m < 2 ^ (m.log2 + 1) := Nat.lt_log2_self
  -- The bits that the mantissa lacks are taken from the zeros.
  have zeros : 52 - m.log2 ≤ e := by
    by_contra few
    have below : m * 2 ^ e < 2 ^ (m.log2 + 1) * 2 ^ e :=
      Nat.mul_lt_mul_of_pos_right high (Nat.two_pow_pos e)
    have atMost : 2 ^ (m.log2 + 1) * 2 ^ e ≤ 2 ^ 53 := by
      rw [← Nat.pow_add]
      exact Nat.pow_le_pow_right (by decide) (by omega)
    omega
  have split (k : Nat) (within : k ≤ e) : m * 2 ^ e = m * 2 ^ k * 2 ^ (e - k) := by
    rw [Nat.mul_assoc, ← Nat.pow_add, Nat.add_sub_cancel' within]
  refine ⟨m * 2 ^ (52 - m.log2), e - (52 - m.log2), ?_, ?_, by omega, split _ zeros⟩
  · calc 2 ^ 52 = 2 ^ m.log2 * 2 ^ (52 - m.log2) := by
          rw [← Nat.pow_add, Nat.add_sub_cancel' (by omega)]
      _ ≤ m * 2 ^ (52 - m.log2) := Nat.mul_le_mul_right _ low
  · calc m * 2 ^ (52 - m.log2) < 2 ^ (m.log2 + 1) * 2 ^ (52 - m.log2) :=
          Nat.mul_lt_mul_of_pos_right high (Nat.two_pow_pos _)
      _ = 2 ^ 53 := by
          rw [← Nat.pow_add]
          congr 1
          omega

/-- Rounding keeps a whole number exactly if it is a floating-point number. -/
theorem whole?_ofQuotient_iff :
    (ofQuotient negative w 1).whole? = some (signed negative w) ↔ IsExact w := by
  by_cases small : w < 2 ^ 53
  · refine iff_of_true ?_ (isExact_of_lt small)
    obtain rfl | positive := Nat.eq_zero_or_pos w
    · exact whole?_eq_some_iff.mpr ⟨0, by simp [quotient], rfl⟩
    · have bits : w.log2 < 53 := (Nat.log2_lt positive.ne').mpr small
      rw [ofQuotient_of_lt negative positive small]
      exact whole?_eq_some_iff.mpr ⟨w, quotient_of_lt (by omega), rfl⟩
  have great := Nat.not_lt.mp small
  constructor
  · intro kept
    obtain tooGreat | ⟨m, e, -, high, inRange, normal, -⟩ := ofQuotient_of_le negative great
    · rw [tooGreat] at kept
      cases kept
    · rw [normal] at kept
      obtain ⟨v, value, same⟩ := whole?_eq_some_iff.mp kept
      rw [quotient_natCast, Nat.mul_one] at value
      have equal : w = v := by
        unfold signed at same
        split_ifs at same <;> omega
      exact ⟨m, e, high, inRange, equal.trans value.symm⟩
  · intro isExact
    obtain ⟨m, e, low, high, inRange, rfl⟩ := isExact.exists_normal great
    rw [ofQuotient_of_normal negative low high inRange]
    exact whole?_eq_some_iff.mpr ⟨m * 2 ^ e, by simp [quotient_natCast], rfl⟩

/-! ## Overflow -/

/-- What is half a last place below one more bit is rounded up to it. -/
theorem roundHalfEven_eq_limit_iff {e : Nat} (bits : w.log2 = 52 + (e + 1)) :
    roundHalfEven w (2 ^ (e + 1)) = 2 ^ 53 ↔ (2 ^ 54 - 1) * 2 ^ e ≤ w := by
  have below : w < 2 ^ 53 * 2 ^ (e + 1) := by
    have high : w < 2 ^ (w.log2 + 1) := Nat.lt_log2_self
    have places : w.log2 + 1 = 53 + (e + 1) := by omega
    rwa [places, Nat.pow_add] at high
  have positive : 0 < 2 ^ e := Nat.two_pow_pos e
  have double : 2 ^ (e + 1) = 2 * 2 ^ e := Nat.pow_succ'
  rw [double] at below ⊢
  generalize 2 ^ e = half at *
  have inLast : w / (2 * half) < 2 ^ 53 := Nat.div_lt_of_lt_mul (by rwa [Nat.mul_comm])
  have split := Nat.div_add_mod w (2 * half)
  have rest := Nat.mod_lt w (Nat.mul_pos two_pos positive)
  unfold roundHalfEven
  dsimp only
  generalize w / (2 * half) = q at *
  generalize w % (2 * half) = r at *
  by_cases last : q = 2 ^ 53 - 1
  · subst last
    split_ifs with up
    · refine iff_of_true rfl ?_
      simp only [Bool.or_eq_true, decide_eq_true_eq, Bool.and_eq_true, beq_iff_eq] at up
      omega
    · refine iff_of_false (by decide) ?_
      simp only [Bool.or_eq_true, decide_eq_true_eq, Bool.and_eq_true, beq_iff_eq, not_or] at up
      omega
  · have atMost : 2 * half * q ≤ 2 * half * (2 ^ 53 - 2) := Nat.mul_le_mul_left _ (by omega)
    refine iff_of_false ?_ (by omega)
    split_ifs <;> omega

theorem pow_le_limit {k e : Nat} (few : k ≤ e) : 2 ^ k ≤ (2 ^ 54 - 1) * 2 ^ e :=
  (Nat.pow_le_pow_right (by decide) few).trans (Nat.le_mul_of_pos_left _ (by decide))

theorem limit_le_of_pow_le {k e : Nat} (many : 54 + e ≤ k) (above : 2 ^ k ≤ w) :
    (2 ^ 54 - 1) * 2 ^ e ≤ w :=
  calc (2 ^ 54 - 1) * 2 ^ e ≤ 2 ^ 54 * 2 ^ e := Nat.mul_le_mul_right _ (Nat.sub_le _ _)
    _ = 2 ^ (54 + e) := by rw [← Nat.pow_add]
    _ ≤ 2 ^ k := Nat.pow_le_pow_right (by decide) many
    _ ≤ w := above

/-- There is nothing to round to from half a last place below `2 ^ 1024` on. -/
theorem ofQuotient_eq_infinite_iff :
    ofQuotient negative w 1 = infinite negative ↔ (2 ^ 54 - 1) * 2 ^ 970 ≤ w := by
  rcases Nat.lt_trichotomy w.log2 1023 with few | last | many
  · have below : w < (2 ^ 54 - 1) * 2 ^ 970 :=
      calc w < 2 ^ (w.log2 + 1) := Nat.lt_log2_self
        _ ≤ 2 ^ (53 + 970) := Nat.pow_le_pow_right (by decide) (by omega)
        _ = 2 ^ 53 * 2 ^ 970 := by rw [← Nat.pow_add]
        _ ≤ (2 ^ 54 - 1) * 2 ^ 970 := Nat.mul_le_mul_right _ (by decide)
    refine iff_of_false ?_ (Nat.not_le.mpr below)
    by_cases small : w < 2 ^ 53
    · have kept := (@whole?_ofQuotient_iff w negative).mpr (isExact_of_lt small)
      intro tooGreat
      rw [tooGreat] at kept
      cases kept
    · have positive : w ≠ 0 := by omega
      have bits : 53 ≤ w.log2 := (Nat.le_log2 positive).mpr (Nat.not_lt.mp small)
      obtain ⟨e, bits⟩ := Nat.exists_eq_add_of_le (Nat.le_of_succ_le bits)
      rw [ofQuotient_great bits]
      split_ifs <;> first | omega | simp
  · have bits : w.log2 = 52 + (970 + 1) := last
    rw [← roundHalfEven_eq_limit_iff bits, ofQuotient_great bits]
    have last : ¬ (971 : Int) < (970 + 1 : Nat) := by omega
    have next : (971 : Int) < (970 + 1 : Nat) + 1 := by omega
    rw [if_pos next, if_neg last]
    split_ifs with up
    · exact iff_of_true rfl up
    · exact iff_of_false (by simp) up
  · have positive : w ≠ 0 := by
      rintro rfl
      exact absurd many (by decide)
    obtain ⟨e, bits⟩ := Nat.exists_eq_add_of_le (by omega : 52 ≤ w.log2)
    refine iff_of_true ?_ (limit_le_of_pow_le many (Nat.log2_self_le positive))
    rw [ofQuotient_great bits]
    split_ifs <;> first | rfl | omega

/-! ## Decimals -/

/-- A power of ten that a number comes to at least. -/
theorem pow_ten_le_self {n : Nat} (positive : n ≠ 0) : 10 ^ (n.log2 / 10 * 3) ≤ n :=
  calc 10 ^ (n.log2 / 10 * 3) = (10 ^ 3) ^ (n.log2 / 10) := by rw [Nat.mul_comm, Nat.pow_mul]
    _ ≤ (2 ^ 10) ^ (n.log2 / 10) := Nat.pow_le_pow_left (by decide) _
    _ = 2 ^ (10 * (n.log2 / 10)) := (Nat.pow_mul ..).symm
    _ ≤ 2 ^ n.log2 := Nat.pow_le_pow_right (by decide) (Nat.mul_div_le _ _)
    _ ≤ n := Nat.log2_self_le positive

theorem pow_two_le_pow_ten (n : Nat) : 2 ^ (3 * n) ≤ 10 ^ n := by
  rw [Nat.pow_mul]
  exact Nat.pow_le_pow_left (by decide) n

/-- A power of ten that a number does not come to. -/
theorem lt_pow_ten (n : Nat) : n < 10 ^ (n.log2 / 3 + 1) :=
  calc n < 2 ^ (n.log2 + 1) := Nat.lt_log2_self
    _ ≤ 2 ^ (3 * (n.log2 / 3 + 1)) := Nat.pow_le_pow_right (by decide) (by omega)
    _ ≤ 10 ^ (n.log2 / 3 + 1) := pow_two_le_pow_ten _

section decimal

variable {digits : Nat} {exponent : Int}
  (value : digits * 10 ^ exponent.toNat = w * 10 ^ (-exponent).toNat)

include value

/-- A decimal that is infinite by its digits and exponent alone has no less a value. -/
theorem pow_ten_le_of_great (some : digits ≠ 0)
    (great : 400 < (digits.log2 / 10 * 3 : Nat) + exponent) : 10 ^ 400 ≤ w := by
  have product : 10 ^ 400 * 10 ^ (-exponent).toNat ≤ w * 10 ^ (-exponent).toNat :=
    calc 10 ^ 400 * 10 ^ (-exponent).toNat
        ≤ 10 ^ (digits.log2 / 10 * 3) * 10 ^ exponent.toNat := by
          rw [← Nat.pow_add, ← Nat.pow_add]
          exact Nat.pow_le_pow_right (by decide) (by omega)
      _ ≤ digits * 10 ^ exponent.toNat := Nat.mul_le_mul_right _ (pow_ten_le_self some)
      _ = w * 10 ^ (-exponent).toNat := value
  exact Nat.le_of_mul_le_mul_right product (Nat.pow_pos (by decide))

/-- A decimal that is zero by its digits and exponent alone is less than any other whole number. -/
theorem eq_zero_of_little (little : (digits.log2 / 3 + 1 : Nat) + exponent < -400) : w = 0 := by
  have product : w * 10 ^ (-exponent).toNat < 1 * 10 ^ (-exponent).toNat :=
    calc w * 10 ^ (-exponent).toNat = digits * 10 ^ exponent.toNat := value.symm
      _ < 10 ^ (digits.log2 / 3 + 1) * 10 ^ exponent.toNat :=
          Nat.mul_lt_mul_of_pos_right (lt_pow_ten digits) (Nat.pow_pos (by decide))
      _ ≤ 1 * 10 ^ (-exponent).toNat := by
          rw [Nat.one_mul, ← Nat.pow_add]
          exact Nat.pow_le_pow_right (by decide) (by omega)
  exact Nat.lt_one_iff.mp (Nat.lt_of_mul_lt_mul_right product)

/-- A decimal whose value is a whole number is read as that number rounded. -/
theorem ofDecimal_of_whole : ofDecimal negative digits exponent = ofQuotient negative w 1 := by
  have tens : 0 < 10 ^ (-exponent).toNat := Nat.pow_pos (by decide)
  unfold ofDecimal
  dsimp only
  split_ifs with none great little whole
  · rw [none, Nat.zero_mul] at value
    obtain rfl : w = 0 := (Nat.mul_eq_zero.mp value.symm).resolve_right tens.ne'
    rfl
  · have above : 2 ^ (3 * 400) ≤ w :=
      (pow_two_le_pow_ten 400).trans (pow_ten_le_of_great value none great)
    exact (ofQuotient_eq_infinite_iff.mpr (limit_le_of_pow_le (by decide) above)).symm
  · obtain rfl := eq_zero_of_little value little
    rfl
  · have noDenominator : (-exponent).toNat = 0 := by omega
    rw [noDenominator, Nat.pow_zero, Nat.mul_one] at value
    rw [Nat.pow_eq, value]
  · have noFactor : exponent.toNat = 0 := by omega
    rw [noFactor, Nat.pow_zero, Nat.mul_one] at value
    rw [Nat.pow_eq, value, ofQuotient_mul_self negative w tens]

end decimal

end DesignGraph.Binary64
