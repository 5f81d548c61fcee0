import DesignGraph.Text.Blank
import DesignGraph.Text.Case
import Mathlib.Data.List.Basic
import Mathlib.Data.Nat.Bitwise

/-!
# Small letters

A text in small letters stays as it is when it is lowered once more. Two facts on the case table
carry this: no code point that the table leads to is one that it lowers, and none of them is a
blank. A capital sigma looks at the word around it, and no further than to the next character that
is neither part of a word nor ignored in one.
-/

namespace DesignGraph.Text

variable {c d : Char} {cs before : List Char} {code : Nat} {left right : List Nat}

/-- A character that lowering leaves as it is, whatever stands around it. -/
structure IsLowered (c : Char) : Prop where
  fixed : lowerChar c = [c]
  noSigma : c ≠ capitalSigma

/-- A character that does not count in a word, and that no word goes on behind. -/
structure EndsWord (c : Char) : Prop where
  counts : isCaseIgnorable c = false
  uncased : isCased c = false

/-! ## Sets of code points -/

/-- A set of code points as one number, a bit for each of them. -/
def bitsOf (codes : List Nat) : Nat := codes.foldr (fun code set => 2 ^ code ||| set) 0

theorem testBit_bitsOf (codes : List Nat) (code : Nat) :
    (bitsOf codes).testBit code = true ↔ code ∈ codes := by
  induction codes with
  | nil => simp [bitsOf]
  | cons other codes ih =>
    change (2 ^ other ||| bitsOf codes).testBit code = true ↔ _
    rw [Nat.testBit_or, Bool.or_eq_true, Nat.testBit_two_pow, decide_eq_true_iff, ih,
      List.mem_cons, eq_comm]

theorem not_mem_of_bitsOf (apart : bitsOf left &&& bitsOf right = 0) (member : code ∈ left) :
    code ∉ right := by
  intro both
  have set := congrArg (fun bits => bits.testBit code) apart
  simp [Nat.testBit_and, (testBit_bitsOf left code).mpr member,
    (testBit_bitsOf right code).mpr both] at set

/-! ## The case table -/

/-- The code points of a run. -/
def members (run : CaseRun) : List Nat :=
  let (first, last, step, _) := run
  (List.range ((last - first) / step + 1)).map fun i => first + i * step

/-- The code points that the members of a run are mapped to. -/
def images (run : CaseRun) : List Nat :=
  (members run).map fun code : Nat => ((code : Int) + run.2.2.2).toNat

/-- Code points that no small letter has: those before the small letters of the ASCII range and
behind them, the dotted capital, the blanks, and what is no character at all. -/
def unlettered : List (Nat × Nat) := [
  (0x0, 0x60), (0x7b, 0xa0), (0x130, 0x130), (0x1680, 0x1680), (0x2000, 0x205f),
  (0x3000, 0x3000), (0xd800, 0xdfff)]

/-- A code point that meets the test of a run is one of its members. -/
theorem mem_members {first last step : Nat} {distance : Int}
    (within : (first ≤ code && code ≤ last && (code - first) % step == 0) = true) :
    code ∈ members (first, last, step, distance) := by
  simp only [Bool.and_eq_true, decide_eq_true_eq, beq_iff_eq] at within
  obtain ⟨⟨least, most⟩, regular⟩ := within
  refine List.mem_map.mpr ⟨(code - first) / step, ?_, ?_⟩
  · have ordered : (code - first) / step ≤ (last - first) / step := by
      apply Nat.div_le_div_right
      omega
    exact List.mem_range.mpr (by omega)
  · have whole := Nat.div_add_mod' (code - first) step
    omega

theorem mapByRuns_of_not_mem {runs : List CaseRun} (outside : c.toNat ∉ runs.flatMap members) :
    mapByRuns runs c = c := by
  rw [mapByRuns]
  split
  · next found =>
    have member := List.mem_of_find?_eq_some found
    have within := List.find?_some found
    exact (outside (List.mem_flatMap.mpr ⟨_, member, mem_members within⟩)).elim
  · rfl

theorem mapByRuns_eq_self_or (runs : List CaseRun) (c : Char) :
    mapByRuns runs c = c ∨ ∃ code ∈ runs.flatMap images, mapByRuns runs c = Char.ofNat code := by
  rw [mapByRuns]
  split
  · next found =>
    have member := List.mem_of_find?_eq_some found
    have within := List.find?_some found
    refine .inr ⟨_, List.mem_flatMap.mpr ⟨_, member, ?_⟩, rfl⟩
    exact List.mem_map.mpr ⟨_, mem_members within, rfl⟩
  · exact .inl rfl

/-- What a run leads to is lowered by none. -/
theorem not_mem_members_of_image (image : code ∈ lowerRuns.flatMap images) :
    code ∉ lowerRuns.flatMap members :=
  not_mem_of_bitsOf (by decide +kernel) image

/-- What a run leads to lies between what its first and its last member lead to. -/
theorem image_bounds {first last step : Nat} {distance : Int} (ordered : first ≤ last)
    (image : code ∈ images (first, last, step, distance)) :
    (first + distance).toNat ≤ code ∧ code ≤ (last + distance).toNat := by
  obtain ⟨member, listed, rfl⟩ := List.mem_map.mp image
  obtain ⟨i, counted, rfl⟩ := List.mem_map.mp listed
  have far : i * step ≤ last - first := by
    have most : i ≤ (last - first) / step := by simpa [Nat.lt_succ_iff] using counted
    exact Nat.le_trans (Nat.mul_le_mul_right step most) (Nat.div_mul_le_self ..)
  dsimp only
  omega

/-- Whether a run leads to no code point without a small letter. -/
def isLettered (run : CaseRun) : Bool :=
  let (first, last, _, distance) := run
  Nat.ble first last && Nat.blt (last + distance).toNat 0x110000 &&
    unlettered.all fun range =>
      Nat.blt (last + distance).toNat range.1 || Nat.blt range.2 (first + distance).toNat

theorem lettered_of_image (image : code ∈ lowerRuns.flatMap images) :
    inRanges unlettered code = false ∧ code < 0x110000 := by
  have all : lowerRuns.all isLettered = true := by decide +kernel
  obtain ⟨⟨first, last, step, distance⟩, listed, image⟩ := List.mem_flatMap.mp image
  have lettered := List.all_eq_true.mp all _ listed
  simp only [isLettered, Bool.and_eq_true, Nat.ble_eq, Nat.blt_eq, List.all_eq_true,
    Bool.or_eq_true] at lettered
  obtain ⟨⟨ordered, valid⟩, apart⟩ := lettered
  obtain ⟨least, most⟩ := image_bounds ordered image
  constructor
  · refine List.any_eq_false.mpr fun range member => ?_
    have beside := apart range member
    simp only [Bool.and_eq_true, decide_eq_true_eq]
    omega
  · omega

/-! ## Characters -/

theorem bounds_of_lettered (lettered : inRanges unlettered code = false) :
    (0x60 < code ∧ code < 0x7b ∨ 0xa0 < code) ∧ code ≠ 0x130 ∧ code ≠ 0x1680 ∧
      (code < 0x2000 ∨ 0x205f < code) ∧ code ≠ 0x3000 ∧ (code < 0xd800 ∨ 0xdfff < code) := by
  simp only [inRanges, unlettered, List.any_cons, List.any_nil, Bool.or_eq_false_iff,
    Bool.and_eq_false_iff, decide_eq_false_iff_not] at lettered
  omega

theorem toNat_of_image (image : code ∈ lowerRuns.flatMap images) :
    (Char.ofNat code).toNat = code := by
  obtain ⟨lettered, bounded⟩ := lettered_of_image image
  have bounds := bounds_of_lettered lettered
  have valid : code.isValidChar := by
    rw [Nat.isValidChar]
    omega
  rw [Char.ofNat, dif_pos valid]
  rfl

theorem toLower_of_lt (behind : 0x5a < c.toNat) : c.toLower = c := by
  apply dif_neg
  intro capital
  exact absurd (UInt32.le_iff_toNat_le.mp capital.2) (Nat.not_le.mpr behind)

theorem isLowered_toLower (ascii : c.toNat < 0x80) : IsLowered c.toLower := by
  have all : ∀ code < 0x80, lowerChar (Char.ofNat code).toLower = [(Char.ofNat code).toLower] ∧
      (Char.ofNat code).toLower ≠ capitalSigma := by decide
  obtain ⟨fixed, noSigma⟩ := all c.toNat ascii
  rw [Char.ofNat_toNat] at fixed noSigma
  exact ⟨fixed, noSigma⟩

theorem isLowered_of_image (image : code ∈ lowerRuns.flatMap images) :
    IsLowered (Char.ofNat code) := by
  have outside := not_mem_members_of_image image
  have bounds := bounds_of_lettered (lettered_of_image image).1
  have codeOf := toNat_of_image image
  by_cases ascii : code < 0x80
  · rw [← toLower_of_lt (c := Char.ofNat code) (by omega)]
    exact isLowered_toLower (by omega)
  · constructor
    · rw [lowerChar, if_neg (by omega), if_neg (by omega),
        mapByRuns_of_not_mem (by rwa [codeOf])]
    · intro sigma
      have member : capitalSigma.toNat ∈ lowerRuns.flatMap members :=
        List.mem_flatMap.mpr ⟨(0x3a3, 0x3ab, 1, 32), by decide, by decide⟩
      rw [← sigma, codeOf] at member
      exact outside member

/-- One step of lowering is enough. -/
theorem isLowered_of_mem_lowerChar (member : d ∈ lowerChar c) : IsLowered d := by
  by_cases ascii : c.toNat < 0x80
  · rw [lowerChar, if_pos ascii, List.mem_singleton] at member
    exact member ▸ isLowered_toLower ascii
  · by_cases dotted : c.toNat = 0x130
    · rw [lowerChar, if_neg ascii, if_pos dotted, List.mem_pair] at member
      rcases member with rfl | rfl
      · exact ⟨by decide, by decide⟩
      · exact ⟨by decide +kernel, by decide⟩
    · have mapped : lowerChar c = [mapByRuns lowerRuns c] := by
        rw [lowerChar, if_neg ascii, if_neg dotted]
      obtain rfl := List.mem_singleton.mp (mapped ▸ member)
      rcases mapByRuns_eq_self_or lowerRuns c with same | ⟨code, image, eq_image⟩
      · rw [same]
        refine ⟨by rw [mapped, same], ?_⟩
        rintro rfl
        exact absurd same (by decide +kernel)
      · rw [eq_image]
        exact isLowered_of_image image

/-- Lowering leads to letters, or changes nothing. -/
theorem lettered_of_mem_lowerChar (member : d ∈ lowerChar c) :
    d = c ∨ inRanges unlettered d.toNat = false := by
  by_cases ascii : c.toNat < 0x80
  · rw [lowerChar, if_pos ascii, List.mem_singleton] at member
    have all : ∀ code < 0x80, (Char.ofNat code).toLower = Char.ofNat code ∨
        inRanges unlettered (Char.ofNat code).toLower.toNat = false := by decide
    have lettered := all c.toNat ascii
    rw [Char.ofNat_toNat] at lettered
    rwa [member]
  · by_cases dotted : c.toNat = 0x130
    · rw [lowerChar, if_neg ascii, if_pos dotted, List.mem_pair] at member
      rcases member with rfl | rfl
      · exact .inr (by decide)
      · exact .inr (by decide)
    · rw [lowerChar, if_neg ascii, if_neg dotted, List.mem_singleton] at member
      rcases mapByRuns_eq_self_or lowerRuns c with same | ⟨code, image, eq_image⟩
      · exact .inl (member.trans same)
      · rw [member, eq_image, toNat_of_image image]
        exact .inr (lettered_of_image image).1

theorem not_isBlank_of_lettered (lettered : inRanges unlettered c.toNat = false) :
    isBlank c = false := by
  have bounds := bounds_of_lettered lettered
  simp only [isBlank, Bool.or_eq_false_iff, Bool.and_eq_false_iff, decide_eq_false_iff_not,
    beq_eq_false_iff_ne]
  omega

theorem lowerChar_ne_nil (c : Char) : lowerChar c ≠ [] := by
  rw [lowerChar]
  split
  · simp
  · split <;> simp

/-! ## Texts -/

theorem exists_of_mem_lowerFrom (member : d ∈ lowerFrom before cs) :
    ∃ c ∈ cs, d ∈ lowerChar c ∨ d = finalSigma := by
  induction cs generalizing before with
  | nil => cases member
  | cons c rest ih =>
    rw [lowerFrom, List.mem_append] at member
    rcases member with first | later
    · refine ⟨c, List.mem_cons_self, ?_⟩
      split at first
      · next sigma =>
        split at first
        · exact .inr (List.mem_singleton.mp first)
        · -- The table gives the same small letter for a sigma as the rule does.
          have small : lowerChar c = [smallSigma] := by
            rw [sigma]
            decide +kernel
          exact .inl (small ▸ first)
      · exact .inl first
    · obtain ⟨other, member, from_other⟩ := ih later
      exact ⟨other, List.mem_cons_of_mem c member, from_other⟩

/-- Every character of a text in small letters is one that lowering keeps. -/
theorem isLowered_of_mem_lower (member : d ∈ lower cs) : IsLowered d := by
  obtain ⟨c, -, lowered | rfl⟩ := exists_of_mem_lowerFrom member
  · exact isLowered_of_mem_lowerChar lowered
  · exact ⟨by decide +kernel, by decide⟩

/-- The characters of a text in small letters are letters, or characters of the text. -/
theorem lettered_of_mem_lower (member : d ∈ lower cs) :
    d ∈ cs ∨ inRanges unlettered d.toNat = false := by
  obtain ⟨c, given, lowered | rfl⟩ := exists_of_mem_lowerFrom member
  · rcases lettered_of_mem_lowerChar lowered with rfl | lettered
    · exact .inl given
    · exact .inr lettered
  · exact .inr (by decide)

theorem lowerFrom_of_isLowered (lowered : ∀ c ∈ cs, IsLowered c) : lowerFrom before cs = cs := by
  induction cs generalizing before with
  | nil => rfl
  | cons c rest ih =>
    obtain ⟨first, others⟩ := List.forall_mem_cons.mp lowered
    rw [lowerFrom, if_neg first.noSigma, first.fixed, ih others, List.singleton_append]

/-- A text stays as it is exactly if each of its characters does. -/
theorem lower_eq_self_iff : lower cs = cs ↔ ∀ c ∈ cs, IsLowered c := by
  constructor
  · intro same c member
    rw [← same] at member
    exact isLowered_of_mem_lower member
  · exact lowerFrom_of_isLowered

theorem lower_eq_nil_iff : lower cs = [] ↔ cs = [] := by
  cases cs with
  | nil => simp [lower, lowerFrom]
  | cons c rest =>
    rw [lower, lowerFrom]
    split <;> simp [lowerChar_ne_nil]

/-! ## Words apart -/

theorem EndsWord.startsCased_append (ends : EndsWord c) (cs rest : List Char) :
    startsCased (cs ++ c :: rest) = startsCased cs := by
  induction cs with
  | nil => simp [startsCased, ends.counts, ends.uncased]
  | cons d cs ih =>
    by_cases ignorable : isCaseIgnorable d = true
    · simpa [startsCased, ignorable] using ih
    · simp [startsCased, ignorable]

/-- What stands in front of the end of a word does not count behind it. -/
theorem EndsWord.lowerFrom_append (ends : EndsWord c) (front before cs : List Char) :
    lowerFrom (before ++ c :: front) cs = lowerFrom before cs := by
  induction cs generalizing before with
  | nil => rfl
  | cons d cs ih => rw [lowerFrom, lowerFrom, ends.startsCased_append, ← List.cons_append, ih]

/-- Texts with the end of a word between them are lowered one by one. -/
theorem EndsWord.lower_append (ends : EndsWord c) (noSigma : c ≠ capitalSigma)
    (front rest : List Char) :
    lower (front ++ c :: rest) = lower front ++ (lowerChar c ++ lower rest) := by
  have split : ∀ before, lowerFrom before (front ++ c :: rest) =
      lowerFrom before front ++ (lowerChar c ++ lower rest) := by
    induction front with
    | nil =>
      intro before
      have apart : lowerFrom (c :: before) rest = lower rest := ends.lowerFrom_append before [] rest
      rw [lowerFrom, List.nil_append, List.nil_append, lowerFrom, if_neg noSigma, apart]
    | cons d front ih =>
      intro before
      rw [List.cons_append, lowerFrom, lowerFrom, ends.startsCased_append, ih, List.append_assoc]
  exact split []

end DesignGraph.Text
