import DesignGraph.Number.Binary64
import Mathlib.Tactic.Ring
import Mathlib.Tactic.SplitIfs

/-!
# Rounding of whole numbers

A quotient that is a whole number is rounded as that number, whatever its terms, and a number that
came out of rounding is rounded to itself. So a product with a whole number, and a number that is
rounded to decimal places, are told by the integers that they stand for.
-/

namespace DesignGraph.Binary64

/-! ## Quotients -/

theorem roundHalfEven_mul_right (n d : Nat) {c : Nat} (positive : 0 < c) :
    roundHalfEven (n * c) (d * c) = roundHalfEven n d := by
  have above : 2 * (n % d * c) > d * c ↔ 2 * (n % d) > d := by
    rw [← Nat.mul_assoc]
    exact Nat.mul_lt_mul_right positive
  have half : 2 * (n % d * c) = d * c ↔ 2 * (n % d) = d := by
    rw [← Nat.mul_assoc]
    exact Nat.mul_left_inj positive.ne'
  simp only [roundHalfEven, Nat.mul_div_mul_right n d positive, Nat.mul_mod_mul_right, above,
    Bool.beq_eq_decide_eq, half]

theorem roundHalfEven_mul_self (w : Nat) {d : Nat} (positive : 0 < d) :
    roundHalfEven (w * d) d = w := by
  have one : roundHalfEven w 1 = w := by simp [roundHalfEven, Nat.mod_one]
  have scaled := roundHalfEven_mul_right w 1 positive
  rwa [Nat.one_mul, one] at scaled

theorem roundHalfEven_bounds (n d : Nat) :
    n / d ≤ roundHalfEven n d ∧ roundHalfEven n d ≤ n / d + 1 := by
  unfold roundHalfEven
  dsimp only
  split_ifs <;> omega

theorem scaled_mul_right (n d c : Nat) (exponent : Int) :
    scaled (n * c) (d * c) exponent =
      ((scaled n d exponent).1 * c, (scaled n d exponent).2 * c) := by
  simp only [scaled, Prod.mk.injEq]
  exact ⟨Nat.mul_right_comm .., Nat.mul_right_comm ..⟩

/-! ## Whole numbers -/

theorem log2_mul_sub_log2 {w c : Nat} (positive : 0 < w) (unit : 0 < c) :
    (w * c).log2 = w.log2 + c.log2 ∨ (w * c).log2 = w.log2 + c.log2 + 1 := by
  have product : w * c ≠ 0 := (Nat.mul_pos positive unit).ne'
  have low : 2 ^ (w.log2 + c.log2) ≤ w * c := by
    rw [Nat.pow_add]
    exact Nat.mul_le_mul (Nat.log2_self_le positive.ne') (Nat.log2_self_le unit.ne')
  have high : w * c < 2 ^ (w.log2 + c.log2 + 2) := by
    have split : w.log2 + c.log2 + 2 = (w.log2 + 1) + (c.log2 + 1) := by omega
    rw [split, Nat.pow_add]
    exact Nat.mul_lt_mul'' Nat.lt_log2_self Nat.lt_log2_self
  have atLeast := (Nat.le_log2 product).mpr low
  have below := (Nat.log2_lt product).mpr high
  omega

/-- The unit in the last place of a whole number. -/
theorem unitExponent_mul_self {w c : Nat} (positive : 0 < w) (unit : 0 < c) :
    unitExponent (w * c) c = (w.log2 : Int) - 52 := by
  have low := Nat.log2_self_le positive.ne'
  have high : w < 2 ^ (w.log2 + 1) := Nat.lt_log2_self
  have least : leastExponent = -1074 := rfl
  unfold unitExponent
  dsimp only
  obtain exact | above := log2_mul_sub_log2 positive unit
  · have guess : ((w * c).log2 : Int) - c.log2 = w.log2 := by omega
    have notLess : ¬ w * c * Nat.pow 2 (-(w.log2 : Int)).toNat <
        c * Nat.pow 2 (w.log2 : Int).toNat := by
      have none : (-(w.log2 : Int)).toNat = 0 := by omega
      rw [none, Int.toNat_natCast, Nat.pow_eq, Nat.pow_eq, Nat.pow_zero, Nat.mul_one, Nat.mul_comm]
      exact Nat.not_lt.mpr (Nat.mul_le_mul_left c low)
    simp only [guess, scaled, if_neg notLess]
    omega
  · have guess : ((w * c).log2 : Int) - c.log2 = (w.log2 + 1 : Nat) := by omega
    have less : w * c * Nat.pow 2 (-((w.log2 + 1 : Nat) : Int)).toNat <
        c * Nat.pow 2 ((w.log2 + 1 : Nat) : Int).toNat := by
      have none : (-((w.log2 + 1 : Nat) : Int)).toNat = 0 := by omega
      rw [none, Int.toNat_natCast, Nat.pow_eq, Nat.pow_eq, Nat.pow_zero, Nat.mul_one, Nat.mul_comm]
      exact Nat.mul_lt_mul_of_pos_left high unit
    simp only [guess, scaled, if_pos less]
    omega

/-- A quotient that is a whole number is rounded as that number. -/
theorem ofQuotient_mul_self (negative : Bool) (w : Nat) {c : Nat} (unit : 0 < c) :
    ofQuotient negative (w * c) c = ofQuotient negative w 1 := by
  obtain rfl | positive := Nat.eq_zero_or_pos w
  · rw [Nat.zero_mul]
    rfl
  · have scale := scaled_mul_right w 1 c ((w.log2 : Int) - 52)
    rw [Nat.one_mul] at scale
    have one := unitExponent_mul_self positive Nat.one_pos
    rw [Nat.mul_one] at one
    simp only [ofQuotient, (Nat.mul_pos positive unit).ne', positive.ne', if_false, one,
      unitExponent_mul_self positive unit, scale, roundHalfEven_mul_right _ _ unit]

/-- Whole numbers below the limit of the mantissas are kept. -/
theorem ofQuotient_of_lt (negative : Bool) {w : Nat} (positive : 0 < w) (small : w < 2 ^ 53) :
    ofQuotient negative w 1 =
      finite negative (w * 2 ^ (52 - w.log2)) ((w.log2 : Int) - 52) := by
  have bits : w.log2 < 53 := (Nat.log2_lt positive.ne').mpr small
  have one := unitExponent_mul_self positive Nat.one_pos
  rw [Nat.mul_one] at one
  have up : (-((w.log2 : Int) - 52)).toNat = 52 - w.log2 := by omega
  have down : ((w.log2 : Int) - 52).toNat = 0 := by omega
  have below : w * 2 ^ (52 - w.log2) < 2 ^ 53 := by
    have split : 2 ^ 53 = 2 ^ (w.log2 + 1) * 2 ^ (52 - w.log2) := by
      rw [← Nat.pow_add]
      congr 1
      omega
    rw [split]
    exact Nat.mul_lt_mul_of_pos_right Nat.lt_log2_self (Nat.two_pow_pos _)
  have rounded : roundHalfEven (w * 2 ^ (52 - w.log2)) 1 = w * 2 ^ (52 - w.log2) := by
    simpa using roundHalfEven_mul_self (w * 2 ^ (52 - w.log2)) Nat.one_pos
  have notLimit : w * 2 ^ (52 - w.log2) ≠ mantissaLimit := below.ne
  have notGreat : ¬ greatestExponent < (w.log2 : Int) - 52 := by
    change ¬ (971 : Int) < _
    omega
  simp only [ofQuotient, positive.ne', if_false, one, scaled, up, down, Nat.pow_eq, Nat.pow_zero,
    Nat.mul_one, rounded, notLimit, notGreat]

/-- What a great whole number is rounded to, by the number of its bits. -/
theorem ofQuotient_great {negative : Bool} {w e : Nat} (bits : w.log2 = 52 + e) :
    ofQuotient negative w 1 =
      if roundHalfEven w (2 ^ e) = 2 ^ 53 then
        if 971 < (e : Int) + 1 then infinite negative else finite negative (2 ^ 52) (e + 1)
      else if 971 < (e : Int) then infinite negative
      else finite negative (roundHalfEven w (2 ^ e)) e := by
  have positive : w ≠ 0 := by
    rintro rfl
    have none : Nat.log2 0 = 0 := by decide
    omega
  have unit := unitExponent_mul_self (Nat.pos_of_ne_zero positive) Nat.one_pos
  rw [Nat.mul_one, bits] at unit
  have exponent : ((52 + e : Nat) : Int) - 52 = e := by omega
  rw [exponent] at unit
  have up : (-(e : Int)).toNat = 0 := by omega
  have limit : mantissaLimit = 2 ^ 53 := rfl
  have half : mantissaLimit / 2 = 2 ^ 52 := by decide
  have greatest : greatestExponent = 971 := rfl
  simp only [ofQuotient, positive, if_false, unit, scaled, up, Int.toNat_natCast, Nat.pow_eq,
    Nat.pow_zero, Nat.mul_one, Nat.one_mul, half, greatest]
  rw [limit]
  split_ifs <;> rfl

/-- A number with all its bits is rounded to itself. -/
theorem ofQuotient_of_normal (negative : Bool) {m e : Nat} (low : 2 ^ 52 ≤ m) (high : m < 2 ^ 53)
    (inRange : e ≤ 971) : ofQuotient negative (m * 2 ^ e) 1 = finite negative m e := by
  have positive : 0 < m * 2 ^ e := Nat.mul_pos (by omega) (Nat.two_pow_pos _)
  have bits : (m * 2 ^ e).log2 = 52 + e := by
    rw [Nat.log2_eq_iff positive.ne', Nat.pow_add, Nat.add_right_comm, Nat.pow_add]
    exact ⟨Nat.mul_le_mul_right _ low, Nat.mul_lt_mul_of_pos_right high (Nat.two_pow_pos _)⟩
  rw [ofQuotient_great bits, roundHalfEven_mul_self m (Nat.two_pow_pos e), if_neg high.ne,
    if_neg (by omega)]

/-- Greater whole numbers are rounded to numbers with all their bits. -/
theorem ofQuotient_of_le (negative : Bool) {w : Nat} (great : 2 ^ 53 ≤ w) :
    ofQuotient negative w 1 = infinite negative ∨
      ∃ m e : Nat, 2 ^ 52 ≤ m ∧ m < 2 ^ 53 ∧ e ≤ 971 ∧
        ofQuotient negative w 1 = finite negative m e ∧
        w ≤ 2 * (m * 2 ^ e) ∧ m * 2 ^ e ≤ 2 * w := by
  have positive : w ≠ 0 := by omega
  have many : 53 ≤ w.log2 := (Nat.le_log2 positive).mpr great
  obtain ⟨e, bits⟩ := Nat.exists_eq_add_of_le (Nat.le_of_succ_le many)
  have low : 2 ^ 52 * 2 ^ e ≤ w := by
    rw [← Nat.pow_add, ← bits]
    exact Nat.log2_self_le positive
  have high : w < 2 ^ 53 * 2 ^ e := by
    have below : w < 2 ^ (w.log2 + 1) := Nat.lt_log2_self
    rwa [bits, Nat.add_right_comm, Nat.pow_add] at below
  -- The quotient has 53 bits, so rounding it gives at most the limit.
  have atLeast : 2 ^ 52 ≤ w / 2 ^ e := (Nat.le_div_iff_mul_le (Nat.two_pow_pos e)).mpr low
  have below : w / 2 ^ e < 2 ^ 53 := (Nat.div_lt_iff_lt_mul (Nat.two_pow_pos e)).mpr high
  obtain ⟨roundedUp, roundedDown⟩ := roundHalfEven_bounds w (2 ^ e)
  rw [ofQuotient_great bits]
  split_ifs with limit tooGreat tooGreat
  · exact .inl rfl
  · have double : 2 ^ (e + 1) = 2 * 2 ^ e := Nat.pow_succ'
    exact .inr ⟨2 ^ 52, e + 1, le_rfl, by decide, by omega, rfl, by omega, by omega⟩
  · exact .inl rfl
  · have atMost : roundHalfEven w (2 ^ e) < 2 ^ 53 := by omega
    have le_value : 2 ^ 52 * 2 ^ e ≤ roundHalfEven w (2 ^ e) * 2 ^ e :=
      Nat.mul_le_mul_right _ (atLeast.trans roundedUp)
    have value_le : roundHalfEven w (2 ^ e) * 2 ^ e ≤ 2 ^ 53 * 2 ^ e :=
      Nat.mul_le_mul_right _ atMost.le
    exact .inr ⟨_, e, atLeast.trans roundedUp, atMost, by omega, rfl, by omega, by omega⟩

/-! ## Numbers that are whole -/

theorem quotient_pos (m : Nat) (e : Int) : 0 < (quotient m e).2 := Nat.two_pow_pos _

/-- The quotient of a whole number. -/
theorem whole?_eq_some_iff {negative : Bool} {m : Nat} {e n : Int} :
    (finite negative m e).whole? = some n ↔
      ∃ w, (quotient m e).1 = w * (quotient m e).2 ∧ n = signed negative w := by
  have positive := quotient_pos m e
  simp only [whole?, Option.ite_none_right_eq_some, Option.some.injEq]
  constructor
  · rintro ⟨divides, rfl⟩
    exact ⟨_, (Nat.div_mul_cancel (Nat.dvd_of_mod_eq_zero divides)).symm, rfl⟩
  · rintro ⟨w, whole, rfl⟩
    rw [whole, Nat.mul_div_cancel _ positive]
    exact ⟨Nat.mul_mod_left _ _, rfl⟩

theorem isFinite_of_whole? {x : Binary64} {n : Int} (whole : x.whole? = some n) :
    x.isFinite = true := by
  cases x with
  | finite => rfl
  | infinite => cases whole
  | nan => cases whole

theorem whole?_of_isZero {x : Binary64} (zero : x.isZero = true) : x.whole? = some 0 := by
  cases x with
  | finite negative m e =>
    obtain rfl : m = 0 := by simpa [isZero] using zero
    exact whole?_eq_some_iff.mpr ⟨0, by simp [quotient], by cases negative <;> rfl⟩
  | infinite => cases zero
  | nan => cases zero

/-- A whole number has no decimal places to round. -/
theorem roundPlaces_of_whole (places : Nat) {negative : Bool} {m w : Nat} {e : Int}
    (whole : (quotient m e).1 = w * (quotient m e).2) :
    (finite negative m e).roundPlaces places = ofQuotient negative w 1 := by
  have positive := quotient_pos m e
  have tens : 0 < Nat.pow 10 places := Nat.pow_pos (by decide)
  change ofQuotient negative
    (roundHalfEven ((quotient m e).1 * Nat.pow 10 places) (quotient m e).2) _ = _
  rw [whole, Nat.mul_right_comm, roundHalfEven_mul_self _ positive, ofQuotient_mul_self _ _ tens]

/-- A small whole number with all its bits. -/
theorem quotient_of_lt {w bits : Nat} (small : bits ≤ 52) :
    (quotient (w * 2 ^ (52 - bits)) ((bits : Int) - 52)).1 =
      w * (quotient (w * 2 ^ (52 - bits)) ((bits : Int) - 52)).2 := by
  have up : (-((bits : Int) - 52)).toNat = 52 - bits := by omega
  have down : ((bits : Int) - 52).toNat = 0 := by omega
  simp only [quotient, up, down, Nat.pow_eq, Nat.pow_zero, Nat.mul_one]

theorem quotient_natCast (m e : Nat) : quotient m e = (m * 2 ^ e, 1) := by
  have none : (-(e : Int)).toNat = 0 := by omega
  simp [quotient, none]

/-- A whole number is rounded to one that is no more than twice as great or as small. -/
theorem exists_whole_of_ofQuotient (negative : Bool) (w : Nat) :
    ofQuotient negative w 1 = infinite negative ∨
      ∃ v, (ofQuotient negative w 1).whole? = some (signed negative v) ∧ w ≤ 2 * v ∧
        v ≤ 2 * w := by
  obtain rfl | positive := Nat.eq_zero_or_pos w
  · exact .inr ⟨0, whole?_eq_some_iff.mpr ⟨0, by simp [quotient], rfl⟩, le_rfl, le_rfl⟩
  · by_cases small : w < 2 ^ 53
    · have bits : w.log2 < 53 := (Nat.log2_lt positive.ne').mpr small
      rw [ofQuotient_of_lt negative positive small]
      exact .inr ⟨w, whole?_eq_some_iff.mpr ⟨w, quotient_of_lt (by omega), rfl⟩, by omega, by omega⟩
    · obtain tooGreat | ⟨m, e, -, -, -, normal, atLeast, atMost⟩ :=
        ofQuotient_of_le negative (Nat.not_lt.mp small)
      · exact .inl tooGreat
      · rw [normal]
        exact .inr ⟨m * 2 ^ e, whole?_eq_some_iff.mpr ⟨_, by simp [quotient_natCast], rfl⟩, atLeast,
          atMost⟩

/-- The rounding of a whole number is a number that rounding keeps. -/
theorem roundPlaces_ofQuotient (places : Nat) (negative : Bool) (w : Nat) :
    (ofQuotient negative w 1).roundPlaces places = ofQuotient negative w 1 := by
  obtain rfl | positive := Nat.eq_zero_or_pos w
  · exact roundPlaces_of_whole places (by simp [quotient])
  · by_cases small : w < 2 ^ 53
    · have bits : w.log2 < 53 := (Nat.log2_lt positive.ne').mpr small
      conv_lhs => rw [ofQuotient_of_lt negative positive small]
      exact roundPlaces_of_whole places (quotient_of_lt (by omega))
    · obtain tooGreat | ⟨m, e, low, high, inRange, normal, -⟩ :=
        ofQuotient_of_le negative (Nat.not_lt.mp small)
      · rw [tooGreat]
        rfl
      · rw [normal, roundPlaces_of_whole places (w := m * 2 ^ e) (by simp [quotient_natCast]),
          ofQuotient_of_normal negative low high inRange]

theorem roundPlaces_ofInt (places : Nat) (n : Int) : (ofInt n).roundPlaces places = ofInt n :=
  roundPlaces_ofQuotient places _ _

theorem ofQuotient_ne_nan (negative : Bool) (n d : Nat) : ofQuotient negative n d ≠ nan := by
  unfold ofQuotient
  dsimp only
  split_ifs <;> exact Binary64.noConfusion

theorem ofInt_natCast (w : Nat) : ofInt w = ofQuotient false w 1 := by
  have notNegative : ¬ (w : Int) < 0 := by omega
  simp [ofInt, notNegative]

/-- The quotient of a product, across the quotients of the factors. -/
theorem quotient_mul (m m' : Nat) (e e' : Int) :
    (quotient (m * m') (e + e')).1 * ((quotient m e).2 * (quotient m' e').2) =
      (quotient m e).1 * (quotient m' e').1 * (quotient (m * m') (e + e')).2 := by
  simp only [quotient, Nat.pow_eq]
  have powers : 2 ^ (e + e').toNat * (2 ^ (-e).toNat * 2 ^ (-e').toNat) =
      2 ^ e.toNat * 2 ^ e'.toNat * 2 ^ (-(e + e')).toNat := by
    simp only [← Nat.pow_add]
    congr 1
    omega
  calc m * m' * 2 ^ (e + e').toNat * (2 ^ (-e).toNat * 2 ^ (-e').toNat)
      = m * m' * (2 ^ (e + e').toNat * (2 ^ (-e).toNat * 2 ^ (-e').toNat)) := by ring
    _ = m * 2 ^ e.toNat * (m' * 2 ^ e'.toNat) * 2 ^ (-(e + e')).toNat := by
      rw [powers]
      ring

/-- The product of whole numbers is rounded as the whole number that it is. -/
theorem mul_of_whole {negative negative' : Bool} {m m' w w' : Nat} {e e' : Int}
    (whole : (quotient m e).1 = w * (quotient m e).2)
    (whole' : (quotient m' e').1 = w' * (quotient m' e').2) :
    (finite negative m e).mul (finite negative' m' e') =
      ofQuotient (negative != negative') (w * w') 1 := by
  have units : 0 < (quotient m e).2 * (quotient m' e').2 :=
    Nat.mul_pos (quotient_pos m e) (quotient_pos m' e')
  have product : (quotient (m * m') (e + e')).1 = w * w' * (quotient (m * m') (e + e')).2 := by
    refine Nat.eq_of_mul_eq_mul_right units ?_
    rw [quotient_mul, whole, whole']
    ring
  change ofQuotient _ (quotient (m * m') (e + e')).1 (quotient (m * m') (e + e')).2 = _
  rw [product, ofQuotient_mul_self _ _ (quotient_pos _ _)]

theorem mul_ofInt_of_whole {negative : Bool} {m w : Nat} {e : Int}
    (whole : (quotient m e).1 = w * (quotient m e).2) {scale : Nat} (positive : 0 < scale)
    (small : scale < 2 ^ 53) :
    (finite negative m e).mul (ofInt scale) = ofQuotient negative (w * scale) 1 := by
  have bits : scale.log2 < 53 := (Nat.log2_lt positive.ne').mpr small
  rw [ofInt_natCast, ofQuotient_of_lt false positive small,
    mul_of_whole whole (quotient_of_lt (by omega)), Bool.bne_false]

end DesignGraph.Binary64
