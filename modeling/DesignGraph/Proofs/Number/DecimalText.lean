import DesignGraph.Proofs.Number.Exact
import DesignGraph.Proofs.Number.Numeral

/-!
# Decimal texts of integers

An optional sign and digits, of any script, come to an integer. The text of an integer is such a
text of it, so texts tell integers apart. Every numeral that denotes an integer, also one with a
point or an exponent, is read as that integer rounded.
-/

namespace DesignGraph.Numeral

open Text (digitValue? isSpace trimBy)

variable {cs ds : List Char} {n : Int}

/-- At least one digit, of any script. -/
structure IsDigits (ds : List Char) : Prop where
  given : ds ≠ []
  digits : ∀ d ∈ ds, (digitValue? d).isSome = true

/-- The number that digits come to. -/
def decimalValue (ds : List Char) : Nat := ds.foldl (fun n d => n * 10 + (digitValue? d).getD 0) 0

/-- The characters are an optional sign and digits that come to the integer. -/
inductive IsDecimalOf : List Char → Int → Prop
  | unsigned {ds : List Char} (digits : IsDigits ds) : IsDecimalOf ds (decimalValue ds)
  | plus {ds : List Char} (digits : IsDigits ds) : IsDecimalOf ('+' :: ds) (decimalValue ds)
  | minus {ds : List Char} (digits : IsDigits ds) :
      IsDecimalOf ('-' :: ds) (-(decimalValue ds : Int))

/-! ## Digits -/

theorem digitValue?_lt {c : Char} {v : Nat} (found : digitValue? c = some v) : v < 10 := by
  unfold digitValue? at found
  split_ifs at found with ascii digit
  · have bounds : '0'.toNat = 0x30 ∧ '9'.toNat = 0x39 := ⟨rfl, rfl⟩
    rw [Char.isDigit_iff_toNat] at digit
    rw [Option.some.injEq] at found
    omega
  · obtain ⟨row, inRow, rfl⟩ := Option.map_eq_some_iff.mp found
    have within := List.find?_some inRow
    simp only [Bool.and_eq_true, decide_eq_true_eq] at within
    omega

/-- A digit of any script becomes the ASCII digit with its value. -/
theorem asciiDigit_of_digitValue? {c : Char} {v : Nat} (found : digitValue? c = some v) :
    (asciiDigit c).isDigit = true ∧ (asciiDigit c).toNat - 0x30 = v := by
  have each : ∀ v < 10, (Char.ofNat (0x30 + v)).isDigit = true ∧
      (Char.ofNat (0x30 + v)).toNat - 0x30 = v := by decide
  simp only [asciiDigit, found]
  exact each v (digitValue?_lt found)

theorem IsDigits.isDigit (digits : IsDigits ds) : ∀ d ∈ ds.map asciiDigit, d.isDigit = true := by
  intro d member
  obtain ⟨c, inText, rfl⟩ := List.mem_map.mp member
  obtain ⟨v, found⟩ := Option.isSome_iff_exists.mp (digits.digits c inText)
  exact (asciiDigit_of_digitValue? found).1

theorem IsDigits.digitsValue (digits : IsDigits ds) :
    digitsValue (ds.map asciiDigit) = decimalValue ds := by
  rw [Numeral.digitsValue, List.foldl_map]
  refine List.foldl_ext _ _ _ fun n d member => ?_
  obtain ⟨v, found⟩ := Option.isSome_iff_exists.mp (digits.digits d member)
  rw [(asciiDigit_of_digitValue? found).2, found, Option.getD_some]

/-- No digit and no sign is white space or an underscore. -/
theorem IsDecimalOf.plain (decimal : IsDecimalOf cs n) :
    ∀ c ∈ cs, isSpace c = false ∧ asciiDigit c ≠ '_' := by
  have ofDigits {ds : List Char} (digits : IsDigits ds) :
      ∀ d ∈ ds, isSpace d = false ∧ asciiDigit d ≠ '_' := by
    intro d member
    have digit := digits.isDigit _ (List.mem_map_of_mem member)
    constructor
    · rw [Bool.eq_false_iff]
      intro space
      have stray := isStray_of_isSpace space
      simp [isStray, digit] at stray
    · intro same
      rw [same] at digit
      exact absurd digit (by decide)
  cases decimal with
  | unsigned digits => exact ofDigits digits
  | plus digits => exact List.forall_mem_cons.mpr ⟨by decide, ofDigits digits⟩
  | minus digits => exact List.forall_mem_cons.mpr ⟨by decide, ofDigits digits⟩

/-! ## What numerals denote -/

/-- The sign, the digits and the exponent of a numeral. -/
def parts? (s : String) : Option (Bool × Nat × Int) := do
  let (negative, rest) :=
    splitSign (← dropUnderscores none ((trimBy isSpace s.toList).map asciiDigit))
  (decimal? rest).map fun (digits, exponent) => (negative, digits, exponent)

theorem parts?_eq_some_iff {s : String} {negative : Bool} {digits : Nat} {exponent : Int} :
    parts? s = some (negative, digits, exponent) ↔ ∃ kept,
      dropUnderscores none ((trimBy isSpace s.toList).map asciiDigit) = some kept ∧
        (splitSign kept).1 = negative ∧ decimal? (splitSign kept).2 = some (digits, exponent) := by
  simp only [parts?, Option.bind_eq_bind, Option.bind_eq_some_iff, Option.map_eq_some_iff,
    Prod.mk.injEq, Prod.exists]
  refine exists_congr fun kept => and_congr_right fun _ => ?_
  constructor
  · rintro ⟨_, _, decimal, sign, rfl, rfl⟩
    exact ⟨sign, decimal⟩
  · rintro ⟨sign, decimal⟩
    exact ⟨_, _, decimal, sign, rfl, rfl⟩

/-- The numeral denotes the integer, exactly: with its digits moved across the point by its
exponent nothing is left behind the point. -/
def Denotes (s : String) (n : Int) : Prop :=
  ∃ negative digits exponent w, parts? s = some (negative, digits, exponent) ∧
    digits * 10 ^ exponent.toNat = w * 10 ^ (-exponent).toNat ∧ n = Binary64.signed negative w

theorem Denotes.unique {s : String} {m : Int} (first : Denotes s m) (second : Denotes s n) :
    m = n := by
  obtain ⟨negative, digits, exponent, v, parts, value, rfl⟩ := first
  obtain ⟨_, _, _, w, partsToo, valueToo, rfl⟩ := second
  cases parts.symm.trans partsToo
  rw [Nat.mul_right_cancel (Nat.pow_pos (by decide)) (value.symm.trans valueToo)]

/-- A numeral that denotes an integer is read as that integer rounded. -/
theorem Denotes.read {s : String} (denotes : Denotes s n) : ∃ negative,
    read? s = some (Binary64.ofQuotient negative n.natAbs 1) ∧
      n = Binary64.signed negative n.natAbs := by
  obtain ⟨negative, digits, exponent, w, parts, value, rfl⟩ := denotes
  obtain ⟨kept, dropped, rfl, decimal⟩ := parts?_eq_some_iff.mp parts
  have size : (Binary64.signed (splitSign kept).1 w).natAbs = w := by
    unfold Binary64.signed
    split_ifs <;> omega
  refine ⟨(splitSign kept).1, readChars?_eq_some_iff.mpr ⟨kept, dropped, ?_⟩, by rw [size]⟩
  rw [unsigned?_of_decimal? _ decimal, size, Binary64.ofDecimal_of_whole value]

theorem dropUnderscores_of_none {before : Option Char} (none : ∀ c ∈ cs, c ≠ '_') :
    dropUnderscores before cs = some cs := by
  induction cs generalizing before with
  | nil => rw [dropUnderscores]
  | cons c rest ih =>
    obtain ⟨other, others⟩ := List.forall_mem_cons.mp none
    rw [dropUnderscores_cons other, ih others, Option.map_some]

/-- Behind the sign of a decimal text there are digits only. -/
theorem IsDecimalOf.splitSign (decimal : IsDecimalOf cs n) : ∃ w,
    decimal? (splitSign (cs.map asciiDigit)).2 = some (w, 0) ∧
      n = Binary64.signed (splitSign (cs.map asciiDigit)).1 w := by
  have value {ds : List Char} (digits : IsDigits ds) :
      decimal? (ds.map asciiDigit) = some (decimalValue ds, 0) := by
    rw [decimal?_of_digits (by simpa using digits.given) digits.isDigit, digits.digitsValue]
  cases decimal with
  | unsigned digits =>
    rw [splitSign_of_digits digits.isDigit]
    exact ⟨_, value digits, rfl⟩
  | plus digits => exact ⟨_, value digits, rfl⟩
  | minus digits => exact ⟨_, value digits, rfl⟩

/-- A decimal text of an integer denotes it. -/
theorem IsDecimalOf.denotes {s : String} (decimal : IsDecimalOf s.toList n) : Denotes s n := by
  have plain := decimal.plain
  have kept : dropUnderscores none ((trimBy isSpace s.toList).map asciiDigit) =
      some (s.toList.map asciiDigit) := by
    rw [trimBy_of_none fun c member => (plain c member).1]
    refine dropUnderscores_of_none fun d member => ?_
    obtain ⟨c, inText, rfl⟩ := List.mem_map.mp member
    exact (plain c inText).2
  obtain ⟨w, digits, value⟩ := decimal.splitSign
  exact ⟨_, w, 0, w, parts?_eq_some_iff.mpr ⟨_, kept, rfl, digits⟩, rfl, value⟩

/-! ## The text of an integer -/

theorem isDecimalOf_toDigits (v : Nat) : IsDigits (Nat.toDigits 10 v) ∧
    decimalValue (Nat.toDigits 10 v) = v := by
  have value (d : Char) (member : d ∈ Nat.toDigits 10 v) :
      digitValue? d = some (d.toNat - 0x30) := by
    have digit := Nat.isDigit_of_mem_toDigits (by decide) (by decide) member
    have bounds : '9'.toNat = 0x39 := rfl
    rw [digitValue?, if_pos, if_pos digit]
    rw [Char.isDigit_iff_toNat] at digit
    omega
  refine ⟨⟨List.ne_nil_of_length_pos Nat.length_toDigits_pos, fun d member => ?_⟩, ?_⟩
  · rw [value d member, Option.isSome_some]
  · conv_rhs => rw [← Nat.ofDigitChars_toDigits (by decide : 1 < 10) (Nat.le_refl 10) (n := v)]
    rw [decimalValue, Nat.ofDigitChars_eq_foldl]
    refine List.foldl_ext _ _ _ fun n d member => ?_
    rw [value d member, Option.getD_some, Nat.mul_comm]
    rfl

/-- The text of an integer is a decimal text of it. -/
theorem isDecimalOf_toString (n : Int) : IsDecimalOf (toString n).toList n := by
  have natural (v : Nat) : (toString v).toList = Nat.toDigits 10 v := by
    rw [Nat.toString_eq_ofList_toDigits, String.toList_ofList]
  cases n with
  | ofNat v =>
    obtain ⟨digits, value⟩ := isDecimalOf_toDigits v
    have decimal := IsDecimalOf.unsigned digits
    rw [value, ← natural] at decimal
    exact decimal
  | negSucc v =>
    obtain ⟨digits, value⟩ := isDecimalOf_toDigits (v + 1)
    have decimal := IsDecimalOf.minus digits
    have text : (toString (Int.negSucc v)).toList = '-' :: Nat.toDigits 10 (v + 1) := by
      rw [← natural]
      change ("-" ++ toString (v + 1)).toList = _
      rw [String.toList_append]
      rfl
    rw [value, ← text] at decimal
    exact decimal

/-- A text comes to one integer. -/
theorem IsDecimalOf.unique {m : Int} (first : IsDecimalOf cs m) (second : IsDecimalOf cs n) :
    m = n := by
  have noSign {c : Char} {ds : List Char} (digits : IsDigits (c :: ds))
      (sign : (digitValue? c).isSome = false) : False := by
    rw [digits.digits c List.mem_cons_self] at sign
    cases sign
  cases first with
  | unsigned digits =>
    cases second with
    | unsigned => rfl
    | plus => exact (noSign digits (by decide)).elim
    | minus => exact (noSign digits (by decide)).elim
  | plus =>
    cases second with
    | unsigned digits => exact (noSign digits (by decide)).elim
    | plus => rfl
  | minus =>
    cases second with
    | unsigned digits => exact (noSign digits (by decide)).elim
    | minus => rfl

theorem toString_int_inj {m : Int} (same : toString m = toString n) : m = n :=
  (same ▸ isDecimalOf_toString m).unique (isDecimalOf_toString n)

end DesignGraph.Numeral
