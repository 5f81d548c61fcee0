import DesignGraph.Number.Numeral
import Mathlib.Algebra.BigOperators.Group.List.Basic
import Mathlib.Data.List.Induction
import Mathlib.Data.List.TakeWhile
import Mathlib.Tactic.Ring
import Mathlib.Tactic.SplitIfs

/-!
# Repeated numerals

A text that is repeated many times is a numeral only if it has nothing but digits, and underscores
between them: a numeral has at most one point, one exponent and few signs. The numeral then has the
digits of the text, as often as it is repeated.
-/

namespace DesignGraph.Numeral

open Text

/-! ## Texts -/

/-- What stands between two texts that are not blank is not trimmed. -/
theorem sublist_trimBy {inClass : Char → Bool} {front back : List Char}
    (left : ∃ c ∈ front, inClass c = false) (right : ∃ c ∈ back, inClass c = false)
    (middle : List Char) : middle.Sublist (trimBy inClass (front ++ (middle ++ back))) := by
  have stays : ∀ cs : List Char, (∃ c ∈ cs, inClass c = false) →
      (cs.dropWhile inClass).isEmpty = false := by
    rintro cs ⟨c, member, other⟩
    rw [List.isEmpty_eq_false_iff, ne_eq, List.dropWhile_eq_nil_iff]
    intro all
    rw [all c member] at other
    cases other
  have right' : ∃ c ∈ back.reverse, inClass c = false := by
    obtain ⟨c, member, other⟩ := right
    exact ⟨c, List.mem_reverse.mpr member, other⟩
  rw [trimBy, List.dropWhile_append, stays front left, if_neg Bool.false_ne_true]
  simp only [List.reverse_append, List.append_assoc]
  rw [List.dropWhile_append, stays back.reverse right', if_neg Bool.false_ne_true]
  simp only [List.reverse_append, List.reverse_reverse, List.append_assoc]
  exact (List.sublist_append_left _ _).trans (List.sublist_append_right _ _)

theorem trimBy_of_none {inClass : Char → Bool} {cs : List Char}
    (none : ∀ c ∈ cs, inClass c = false) : trimBy inClass cs = cs := by
  have stays : ∀ ds : List Char, (∀ c ∈ ds, inClass c = false) → ds.dropWhile inClass = ds := by
    intro ds each
    cases ds with
    | nil => rfl
    | cons d rest => exact List.dropWhile_cons_of_neg (by simp [each d List.mem_cons_self])
  have reversed : ∀ c ∈ cs.reverse, inClass c = false :=
    fun c member => none c (List.mem_reverse.mp member)
  rw [trimBy, stays cs none, stays cs.reverse reversed, List.reverse_reverse]

theorem trimBy_of_all {inClass : Char → Bool} {cs : List Char}
    (all : ∀ c ∈ cs, inClass c = true) : trimBy inClass cs = [] := by
  rw [trimBy, List.dropWhile_eq_nil_iff.mpr all]
  rfl

/-! ## Underscores -/

theorem dropUnderscores_cons {c : Char} (other : c ≠ '_') (before : Option Char)
    (rest : List Char) :
    dropUnderscores before (c :: rest) = (dropUnderscores (some c) rest).map (c :: ·) := by
  rw [dropUnderscores]
  exact fun same => absurd same other

theorem dropUnderscores_underscore_eq_some {before : Option Char} {rest out : List Char} :
    dropUnderscores before ('_' :: rest) = some out ↔
      ∃ b a others, before = some b ∧ b.isDigit = true ∧ rest = a :: others ∧
        a.isDigit = true ∧ dropUnderscores (some '_') rest = some out := by
  cases before with
  | none => simp [dropUnderscores]
  | some b =>
    cases rest with
    | nil => simp [dropUnderscores]
    | cons a others => simp [dropUnderscores, and_assoc]

/-- Nothing but underscores is dropped. -/
theorem eq_filter_of_dropUnderscores {before : Option Char} {cs out : List Char}
    (read : dropUnderscores before cs = some out) : out = cs.filter (· ≠ '_') := by
  induction cs generalizing before out with
  | nil =>
    cases read
    rfl
  | cons c rest ih =>
    by_cases same : c = '_'
    · subst same
      obtain ⟨_, _, _, -, -, -, -, later⟩ := dropUnderscores_underscore_eq_some.mp read
      rw [ih later, List.filter_cons_of_neg (by simp)]
    · rw [dropUnderscores_cons same, Option.map_eq_some_iff] at read
      obtain ⟨later, found, rfl⟩ := read
      rw [ih found, List.filter_cons_of_pos (by simpa using same)]

/-- No text that ends with an underscore is read. -/
theorem getLast?_ne_of_dropUnderscores {before : Option Char} {cs out : List Char}
    (read : dropUnderscores before cs = some out) : cs.getLast? ≠ some '_' := by
  induction cs generalizing before out with
  | nil => simp
  | cons c rest ih =>
    by_cases same : c = '_'
    · subst same
      obtain ⟨_, a, others, -, -, rfl, -, later⟩ := dropUnderscores_underscore_eq_some.mp read
      rw [List.getLast?_cons_cons]
      exact ih later
    · rw [dropUnderscores_cons same, Option.map_eq_some_iff] at read
      obtain ⟨later, found, -⟩ := read
      cases rest with
      | nil => simpa using same
      | cons a others =>
        rw [List.getLast?_cons_cons]
        exact ih found

/-- What begins a text that is read, and does not end with an underscore, is read by itself. -/
theorem exists_dropUnderscores_of_append {before : Option Char} {cs more out : List Char}
    (read : dropUnderscores before (cs ++ more) = some out) (ends : cs.getLast? ≠ some '_') :
    ∃ first, dropUnderscores before cs = some first := by
  induction cs generalizing before out with
  | nil => exact ⟨[], by rw [dropUnderscores]⟩
  | cons c rest ih =>
    by_cases same : c = '_'
    · subst same
      obtain ⟨b, a, others, rfl, digit, split, next, later⟩ :=
        dropUnderscores_underscore_eq_some.mp read
      cases rest with
      | nil => simp at ends
      | cons d rest =>
        obtain ⟨rfl, -⟩ := List.cons.inj split
        rw [List.getLast?_cons_cons] at ends
        obtain ⟨first, found⟩ := ih later ends
        exact ⟨first, dropUnderscores_underscore_eq_some.mpr
          ⟨b, d, rest, rfl, digit, rfl, next, found⟩⟩
    · rw [List.cons_append, dropUnderscores_cons same, Option.map_eq_some_iff] at read
      obtain ⟨later, found, -⟩ := read
      have ends' : rest.getLast? ≠ some '_' := by
        cases rest with
        | nil => simp
        | cons d rest => rwa [List.getLast?_cons_cons] at ends
      obtain ⟨first, read⟩ := ih found ends'
      exact ⟨c :: first, by rw [dropUnderscores_cons same, read]; rfl⟩

/-! ## Characters that are no digits -/

/-- How many characters of a text are no digits. -/
def strays (cs : List Char) : Nat := cs.countP fun c => !c.isDigit

theorem strays_cons_le (c : Char) (cs : List Char) : strays (c :: cs) ≤ strays cs + 1 := by
  unfold strays
  rw [List.countP_cons]
  split_ifs <;> omega

theorem strays_of_digits {cs : List Char} (digits : ∀ c ∈ cs, c.isDigit = true) :
    strays cs = 0 := by
  rw [strays, List.countP_eq_zero]
  intro c member
  simp [digits c member]

/-- The digits that a text begins with do not count. -/
theorem strays_dropWhile (cs : List Char) : strays (cs.dropWhile Char.isDigit) = strays cs := by
  have split := List.takeWhile_append_dropWhile (p := Char.isDigit) (l := cs)
  have front : strays (cs.takeWhile Char.isDigit) = 0 :=
    strays_of_digits fun c member => List.mem_takeWhile_imp member
  conv_rhs => rw [← split]
  rw [strays, strays, List.countP_append]
  change _ = strays (cs.takeWhile Char.isDigit) + _
  rw [front, Nat.zero_add]

theorem strays_splitSign (cs : List Char) : strays cs ≤ strays (splitSign cs).2 + 1 := by
  unfold splitSign
  split
  · exact strays_cons_le _ _
  · exact strays_cons_le _ _
  · exact Nat.le_succ _

theorem strays_of_exponent? {cs : List Char} {exponent : Int}
    (read : exponent? cs = some exponent) : strays cs ≤ 2 := by
  cases cs with
  | nil => simp [strays]
  | cons mark rest =>
    simp only [exponent?, Option.ite_none_right_eq_some, Bool.and_eq_true, List.all_eq_true] at read
    obtain ⟨⟨-, digits⟩, -⟩ := read
    have inSign := strays_splitSign rest
    rw [strays_of_digits digits] at inSign
    have first := strays_cons_le mark rest
    omega

theorem strays_of_decimal? {cs : List Char} {read : Nat × Int}
    (found : decimal? cs = some read) : strays cs ≤ 3 := by
  rw [← strays_dropWhile]
  simp only [decimal?, List.span_eq_takeWhile_dropWhile] at found
  split at found
  case h_1 tail rest point =>
    rw [point]
    rw [Option.ite_none_left_eq_some, Option.map_eq_some_iff] at found
    obtain ⟨-, exponent, ofExponent, -⟩ := found
    have bound := strays_of_exponent? ofExponent
    have first := strays_cons_le '.' rest
    rw [strays_dropWhile] at bound
    omega
  case h_2 tail _ =>
    rw [Option.ite_none_left_eq_some, Option.map_eq_some_iff] at found
    obtain ⟨-, exponent, ofExponent, -⟩ := found
    exact Nat.le_succ_of_le (strays_of_exponent? ofExponent)

theorem strays_of_unsigned? {negative : Bool} {cs : List Char} {x : Binary64}
    (read : unsigned? negative cs = some x) : strays cs ≤ 8 := by
  have short : ∀ name : String, name.toList.length ≤ 8 →
      String.ofList (cs.map Char.toLower) = name → strays cs ≤ 8 := by
    rintro name bound rfl
    rw [String.toList_ofList, List.length_map] at bound
    exact List.countP_le_length.trans bound
  unfold unsigned? at read
  dsimp only at read
  split_ifs at read with infinity nan
  · rw [Bool.or_eq_true, decide_eq_true_eq, decide_eq_true_eq] at infinity
    obtain same | same := infinity
    · exact short _ (by decide) same
    · exact short _ (by decide) same
  · exact short _ (by decide) nan
  · obtain ⟨decimal, found, -⟩ := Option.map_eq_some_iff.mp read
    exact (strays_of_decimal? found).trans (by decide)

/-! ## Repeated texts -/

variable {cs : List Char} {x : Binary64}

/-- The characters of a numeral, read without white space around them. -/
def readChars? (cs : List Char) : Option Binary64 := do
  let (negative, rest) := splitSign (← dropUnderscores none ((trimBy isSpace cs).map asciiDigit))
  unsigned? negative rest

theorem read?_eq (s : String) : read? s = readChars? s.toList := rfl

theorem readChars?_eq_some_iff :
    readChars? cs = some x ↔ ∃ kept,
      dropUnderscores none ((trimBy isSpace cs).map asciiDigit) = some kept ∧
        unsigned? (splitSign kept).1 (splitSign kept).2 = some x := by
  simp only [readChars?, Option.bind_eq_bind, Option.bind_eq_some_iff]

/-- A character that is neither a digit nor an underscore. -/
def isStray (c : Char) : Bool := !(asciiDigit c).isDigit && asciiDigit c != '_'

theorem isStray_of_isSpace {c : Char} (space : isSpace c = true) : isStray c = true := by
  have code : c.toNat ≤ 0x20 ∨ c.toNat = 0x85 ∨ c.toNat = 0xa0 ∨ c.toNat = 0x1680 ∨
      (0x2000 ≤ c.toNat ∧ c.toNat ≤ 0x200a) ∨ c.toNat = 0x2028 ∨ c.toNat = 0x2029 ∨
      c.toNat = 0x202f ∨ c.toNat = 0x205f ∨ c.toNat = 0x3000 := by
    simp only [isSpace, isBlank, Bool.and_eq_true, Bool.or_eq_true, decide_eq_true_eq,
      beq_iff_eq] at space
    omega
  have noDigit : c.isDigit = false := by
    have bounds : '0'.toNat = 0x30 ∧ '9'.toNat = 0x39 := ⟨rfl, rfl⟩
    rw [Bool.eq_false_iff, ne_eq, Char.isDigit_iff_toNat]
    omega
  have noUnderscore : c ≠ '_' := by
    rintro rfl
    revert code
    decide
  have noValue : digitValue? c = none := by
    unfold digitValue?
    rw [noDigit]
    by_cases ascii : c.toNat < 0x80
    · rw [if_pos ascii]
      rfl
    · have apart : ∀ row ∈ digitZeros, ¬ (row ≤ c.toNat ∧ c.toNat < row + 10) := by
        intro row listed
        simp only [digitZeros, List.mem_cons, List.not_mem_nil, or_false] at listed
        omega
      rw [if_neg ascii, Option.map_eq_none_iff, List.find?_eq_none]
      simpa using apart
  simp [isStray, asciiDigit, noValue, noDigit, noUnderscore]

/-- A numeral has few characters that are neither digits nor underscores. -/
theorem countP_isStray_le (read : readChars? cs = some x) :
    (trimBy isSpace cs).countP isStray ≤ 9 := by
  obtain ⟨kept, dropped, named⟩ := readChars?_eq_some_iff.mp read
  have counted : strays kept = (trimBy isSpace cs).countP isStray := by
    rw [eq_filter_of_dropUnderscores dropped, strays, List.countP_filter, List.countP_map]
    refine List.countP_congr fun c _ => ?_
    simp [isStray]
  have bound := strays_of_unsigned? named
  have inSign := strays_splitSign kept
  omega

theorem forall_mem_copies {p : Char → Prop} (each : ∀ c ∈ cs, p c) (k : Nat) :
    ∀ c ∈ (List.replicate k cs).flatten, p c := by
  intro c member
  obtain ⟨part, isPart, inPart⟩ := List.mem_flatten.mp member
  rw [List.eq_of_mem_replicate isPart] at inPart
  exact each c inPart

/-- Many copies of a text would have too many. -/
theorem isStray_of_repeated {k : Nat} (many : 12 ≤ k)
    (read : readChars? (List.replicate k cs).flatten = some x) : ∀ c ∈ cs, isStray c = false := by
  obtain ⟨n, rfl⟩ := Nat.exists_eq_add_of_le many
  have split : (List.replicate (12 + n) cs).flatten =
      cs ++ ((List.replicate (10 + n) cs).flatten ++ cs) := by
    have count : 12 + n = (10 + n + 1) + 1 := by omega
    rw [count, List.replicate_succ, List.flatten_cons, List.replicate_succ', List.flatten_append]
    simp
  by_cases blank : ∀ c ∈ cs, isSpace c = true
  · have nothing : readChars? (List.replicate (12 + n) cs).flatten = none := by
      rw [readChars?, trimBy_of_all (forall_mem_copies blank _)]
      rfl
    rw [nothing] at read
    cases read
  · have other : ∃ c ∈ cs, isSpace c = false := by simpa using blank
    have inner := (sublist_trimBy other other (List.replicate (10 + n) cs).flatten).countP_le
      (p := isStray)
    rw [← split] at inner
    have bound := countP_isStray_le read
    have copies : ((List.replicate (10 + n) cs).flatten).countP isStray =
        (10 + n) * cs.countP isStray := by
      simp [List.countP_flatten, List.map_replicate]
    have none : cs.countP isStray = 0 := by
      by_contra some
      have atLeast : (10 + n) * 1 ≤ (10 + n) * cs.countP isStray :=
        Nat.mul_le_mul_left _ (Nat.pos_of_ne_zero some)
      omega
    intro c member
    simpa using List.countP_eq_zero.mp none c member

theorem toLower_of_isDigit {c : Char} (digit : c.isDigit = true) : c.toLower = c := by
  have bounds : '0'.toNat = 0x30 ∧ '9'.toNat = 0x39 := ⟨rfl, rfl⟩
  have small : c.toNat ≤ 0x39 := by
    rw [Char.isDigit_iff_toNat] at digit
    omega
  refine dif_neg ?_
  rintro ⟨atLeast, -⟩
  have code : 0x41 ≤ c.toNat := atLeast
  omega

theorem decimal?_of_digits {ds : List Char} (given : ds ≠ [])
    (digits : ∀ d ∈ ds, d.isDigit = true) : decimal? ds = some (digitsValue ds, 0) := by
  have front : ds.takeWhile Char.isDigit = ds := List.takeWhile_eq_self_iff.mpr digits
  have rest : ds.dropWhile Char.isDigit = [] := List.dropWhile_eq_nil_iff.mpr digits
  simp [decimal?, List.span_eq_takeWhile_dropWhile, front, rest, given, exponent?]

/-- A digit is no sign. -/
theorem splitSign_of_digits {ds : List Char} (digits : ∀ d ∈ ds, d.isDigit = true) :
    splitSign ds = (false, ds) := by
  unfold splitSign
  split
  · exact absurd (digits '-' List.mem_cons_self) (by decide)
  · exact absurd (digits '+' List.mem_cons_self) (by decide)
  · rfl

/-- A decimal begins with a digit or a point, so it is no name. -/
theorem head?_of_decimal? {cs : List Char} {read : Nat × Int} (found : decimal? cs = some read) :
    ∃ c, cs.head? = some c ∧ c.toLower ≠ 'i' ∧ c.toLower ≠ 'n' := by
  cases cs with
  | nil => cases found
  | cons c rest =>
    refine ⟨c, rfl, ?_⟩
    by_cases digit : c.isDigit = true
    · rw [toLower_of_isDigit digit]
      constructor
      · rintro rfl
        exact absurd digit (by decide)
      · rintro rfl
        exact absurd digit (by decide)
    · by_cases point : c = '.'
      · rw [point]
        decide
      · simp [decimal?, List.span_eq_takeWhile_dropWhile, digit, point] at found

/-- Decimals are numerals. -/
theorem unsigned?_of_decimal? (negative : Bool) {cs : List Char} {digits : Nat} {exponent : Int}
    (decimal : decimal? cs = some (digits, exponent)) :
    unsigned? negative cs = some (Binary64.ofDecimal negative digits exponent) := by
  have noName : ∀ name : String, name.toList.head? ∈ [some 'i', some 'n'] →
      String.ofList (cs.map Char.toLower) ≠ name := by
    rintro name initial rfl
    obtain ⟨c, first, notI, notN⟩ := head?_of_decimal? decimal
    rw [String.toList_ofList, List.head?_map, first] at initial
    simp [notI, notN] at initial
  unfold unsigned?
  dsimp only
  rw [if_neg, if_neg (noName "nan" (by decide)), decimal, Option.map_some]
  rw [Bool.or_eq_true, decide_eq_true_eq, decide_eq_true_eq, not_or]
  exact ⟨noName "inf" (by decide), noName "infinity" (by decide)⟩

/-- Digits are a numeral. -/
theorem unsigned?_digits {ds : List Char} (given : ds ≠ []) (digits : ∀ d ∈ ds, d.isDigit = true) :
    unsigned? (splitSign ds).1 (splitSign ds).2 =
      some (Binary64.ofDecimal false (digitsValue ds) 0) := by
  rw [splitSign_of_digits digits]
  exact unsigned?_of_decimal? false (decimal?_of_digits given digits)

/-- A numeral that consists of many copies of a text: the text has digits of its own, and the
numeral has as many copies of them. -/
theorem exists_digits_of_repeated {k : Nat} (many : 12 ≤ k)
    (read : readChars? (List.replicate k cs).flatten = some x) :
    ∃ ds : List Char, ds ≠ [] ∧
      readChars? cs = some (Binary64.ofDecimal false (digitsValue ds) 0) ∧
      x = Binary64.ofDecimal false (digitsValue (List.replicate k ds).flatten) 0 := by
  have plain := isStray_of_repeated many read
  have notSpace : ∀ c ∈ cs, isSpace c = false := by
    intro c member
    rw [Bool.eq_false_iff]
    intro space
    exact absurd (plain c member) (by simp [isStray_of_isSpace space])
  obtain ⟨kept, dropped, named⟩ := readChars?_eq_some_iff.mp read
  rw [trimBy_of_none (forall_mem_copies notSpace k), List.map_flatten, List.map_replicate]
    at dropped
  have kept_eq : kept =
      (List.replicate k ((cs.map asciiDigit).filter (· ≠ '_'))).flatten := by
    rw [eq_filter_of_dropUnderscores dropped, List.filter_flatten, List.map_replicate]
  have ends : (cs.map asciiDigit).getLast? ≠ some '_' := by
    intro last
    refine getLast?_ne_of_dropUnderscores dropped ?_
    obtain ⟨n, rfl⟩ := Nat.exists_eq_add_of_le' (Nat.lt_of_lt_of_le (by decide : 0 < 12) many)
    rw [List.replicate_succ', List.flatten_append, List.flatten_singleton, List.getLast?_append,
      last, Option.some_or]
  obtain ⟨first, own⟩ : ∃ first, dropUnderscores none (cs.map asciiDigit) = some first := by
    obtain ⟨n, rfl⟩ := Nat.exists_eq_add_of_le' (Nat.lt_of_lt_of_le (by decide : 0 < 12) many)
    rw [List.replicate_succ, List.flatten_cons] at dropped
    exact exists_dropUnderscores_of_append dropped ends
  rw [← eq_filter_of_dropUnderscores own] at kept_eq
  have digits : ∀ d ∈ first, d.isDigit = true := by
    intro d member
    rw [eq_filter_of_dropUnderscores own, List.mem_filter, List.mem_map] at member
    obtain ⟨⟨c, inText, rfl⟩, other⟩ := member
    have stray := plain c inText
    simp only [decide_eq_true_eq] at other
    simpa [isStray, other] using stray
  have given : first ≠ [] := by
    rintro rfl
    have none : kept = [] := by simpa using kept_eq
    rw [none] at named
    cases named
  refine ⟨first, given, ?_, ?_⟩
  · refine readChars?_eq_some_iff.mpr ⟨first, ?_, unsigned?_digits given digits⟩
    rw [trimBy_of_none notSpace, own]
  · have copies : (List.replicate k first).flatten ≠ [] := by
      rw [ne_eq, List.flatten_eq_nil_iff]
      intro all
      exact given (all first (List.mem_replicate.mpr ⟨by omega, rfl⟩))
    rw [kept_eq, unsigned?_digits copies (forall_mem_copies digits k)] at named
    exact (Option.some.inj named).symm

/-! ## What copies of digits come to -/

theorem digitsValue_append (ds es : List Char) :
    digitsValue (ds ++ es) = digitsValue ds * 10 ^ es.length + digitsValue es := by
  induction es using List.reverseRecOn with
  | nil => simp [digitsValue]
  | append_singleton es e ih =>
    have last : ∀ cs : List Char,
        digitsValue (cs ++ [e]) = digitsValue cs * 10 + (e.toNat - 0x30) := by
      intro cs
      rw [digitsValue, List.foldl_append]
      rfl
    rw [← List.append_assoc, last, last, ih, List.length_append, List.length_singleton]
    ring

theorem digitsValue_copies_of_zero {ds : List Char} (zero : digitsValue ds = 0) (k : Nat) :
    digitsValue (List.replicate k ds).flatten = 0 := by
  induction k with
  | zero => rfl
  | succ k ih =>
    rw [List.replicate_succ, List.flatten_cons, digitsValue_append, zero, ih, Nat.zero_mul]

/-- Every copy adds a digit at least. -/
theorem digitsValue_copies_ge {ds : List Char} (given : ds ≠ []) (k : Nat) :
    digitsValue ds * 10 ^ k ≤ digitsValue (List.replicate (k + 1) ds).flatten := by
  have digits : 1 ≤ ds.length := List.length_pos_of_ne_nil given
  have long : k ≤ (List.replicate k ds).flatten.length := by
    simpa using Nat.mul_le_mul_left k digits
  rw [List.replicate_succ, List.flatten_cons, digitsValue_append]
  calc digitsValue ds * 10 ^ k
      ≤ digitsValue ds * 10 ^ (List.replicate k ds).flatten.length :=
        Nat.mul_le_mul_left _ (Nat.pow_le_pow_right (by decide) long)
    _ ≤ _ := Nat.le_add_right _ _

end DesignGraph.Numeral
