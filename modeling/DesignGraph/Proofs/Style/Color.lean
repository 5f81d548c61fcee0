import DesignGraph.Compile.Literal
import DesignGraph.Proofs.Answers
import DesignGraph.Proofs.Number.Exact
import DesignGraph.Proofs.Number.Numeral
import DesignGraph.Proofs.Number.Text
import DesignGraph.Proofs.OrderedMap
import DesignGraph.Proofs.Path
import DesignGraph.Style.Color

/-!
# Numbers of colors

A style sheet computes with the channels of a color as they are given, and a class with the numbers
that they stand for. Here is for which channels the two show the same color.
-/

namespace DesignGraph

/-- The simplest value of a number. -/
def Quantum.value : Quantum → Value
  | .whole n => .int n
  | .inexact x => .float x

namespace Style

open Binary64

/-! ## Shown numbers -/

/-- A number as a color shows it. -/
def shownNumber (x : Binary64) : Except Fault String :=
  match x.roundPlaces 4 with
  | .nan => .error .content
  | .infinite _ => .error .overflow
  | y => .ok (match y.whole? with
      | some n => toString n
      | none => y.toText)

theorem channelText_eq_bind (v : Value) : channelText v = channelNumber v >>= shownNumber := by
  unfold channelText
  cases channelNumber v with
  | error fault => rfl
  | ok x =>
    change (match x.roundPlaces 4 with
      | .nan => throw Fault.content
      | .infinite _ => throw Fault.overflow
      | x => pure (match x.whole? with
          | some n => toString n
          | none => x.toText)) = shownNumber x
    unfold shownNumber
    cases x.roundPlaces 4 <;> rfl

theorem isFinite_of_shownNumber {x : Binary64} {t : String} (shown : shownNumber x = .ok t) :
    x.isFinite = true := by
  cases x with
  | finite => rfl
  | infinite => cases shown
  | nan => cases shown

/-- What is shown is what stays finite when it is rounded. -/
theorem exists_shownNumber_iff {x : Binary64} :
    (∃ t, shownNumber x = .ok t) ↔ (x.roundPlaces 4).isFinite = true := by
  unfold shownNumber
  cases x.roundPlaces 4 <;> simp [Binary64.isFinite]

theorem isNumberText_of_shownNumber {x : Binary64} {t : String} (shown : shownNumber x = .ok t) :
    IsNumberText t := by
  unfold shownNumber at shown
  split at shown
  · cases shown
  · cases shown
  · cases shown
    split
    · exact .toString_int _
    · exact .toText _

theorem isNumberText_of_channelText {v : Value} {t : String} (shown : channelText v = .ok t) :
    IsNumberText t := by
  rw [channelText_eq_bind, Answers.bind_eq_ok_iff] at shown
  obtain ⟨x, -, shown⟩ := shown
  exact isNumberText_of_shownNumber shown

/-- The sign of a zero is not shown. -/
theorem shownNumber_of_zero {x : Binary64} {negative : Bool}
    (rounded : x.roundPlaces 4 = zero negative) : shownNumber x = .ok "0" := by
  have whole : (zero negative).whole? = some 0 := whole?_of_isZero rfl
  rw [zero] at rounded whole
  simp only [shownNumber, rounded, whole]
  rfl

/-- A number that is rounded to a whole number is shown as the integer. -/
theorem shownNumber_of_roundPlaces {x : Binary64} {negative : Bool} {w : Nat}
    (rounded : x.roundPlaces 4 = ofQuotient negative w 1) :
    shownNumber x = shownNumber (ofInt (signed negative w)) := by
  obtain rfl | positive := Nat.eq_zero_or_pos w
  · have none : signed negative 0 = 0 := by cases negative <;> rfl
    rw [shownNumber_of_zero rounded, none, shownNumber_of_zero (roundPlaces_ofInt 4 0)]
  · have same : ofInt (signed negative w) = ofQuotient negative w 1 := by
      cases negative with
      | false => exact ofInt_natCast w
      | true => simp [ofInt, signed, positive]
    unfold shownNumber
    rw [same, roundPlaces_ofQuotient, rounded]

/-- Whole numbers are shown as their integers. -/
theorem shownNumber_of_whole {x : Binary64} {n : Int} (whole : x.whole? = some n) :
    shownNumber x = shownNumber (ofInt n) := by
  cases x with
  | nan => cases whole
  | infinite => cases whole
  | finite negative m e =>
    obtain ⟨w, quotient_eq, rfl⟩ := whole?_eq_some_iff.mp whole
    exact shownNumber_of_roundPlaces (roundPlaces_of_whole 4 quotient_eq)

/-- Whole numbers are enlarged as their integers. -/
theorem shownNumber_mul_of_whole {x : Binary64} {n : Int} (whole : x.whole? = some n) {scale : Nat}
    (positive : 0 < scale) (small : scale < 2 ^ 53) :
    shownNumber (x.mul (ofInt scale)) = shownNumber (ofInt (n * scale)) := by
  cases x with
  | nan => cases whole
  | infinite => cases whole
  | finite negative m e =>
    obtain ⟨w, quotient_eq, rfl⟩ := whole?_eq_some_iff.mp whole
    have product : signed negative w * scale = signed negative (w * scale) := by
      cases negative <;> simp [signed]
    rw [mul_ofInt_of_whole quotient_eq positive small, product]
    exact shownNumber_of_roundPlaces (roundPlaces_ofQuotient _ _ _)

theorem channelText_int (n : Int) : channelText (.int n) = shownNumber (ofInt n) := by
  rw [channelText_eq_bind]
  unfold channelNumber
  dsimp only
  split_ifs with finite
  · rfl
  · have rounded : (ofInt n).roundPlaces 4 = ofInt n := roundPlaces_ofInt 4 n
    unfold shownNumber
    rw [rounded]
    cases rounding : ofInt n with
    | finite _ _ _ => simp [rounding, Binary64.isFinite] at finite
    | infinite => rfl
    | nan => exact absurd rounding (ofQuotient_ne_nan _ _ _)

theorem channelText_float (x : Binary64) : channelText (.float x) = shownNumber x := by
  rw [channelText_eq_bind]
  rfl

theorem channelText_text_eq_ok_iff {s t : String} :
    channelText (.text s) = .ok t ↔ ∃ x, Numeral.read? s = some x ∧ shownNumber x = .ok t := by
  rw [channelText_eq_bind, Answers.bind_eq_ok_iff]
  cases read : Numeral.read? s with
  | none => simp [channelNumber, read]
  | some x => simp [channelNumber, read]

/-- A value that has a number, which stays finite when it is rounded. -/
def IsShown (v : Value) : Prop := ∃ x, channelNumber v = .ok x ∧ (x.roundPlaces 4).isFinite = true

theorem exists_channelText_iff {v : Value} : (∃ t, channelText v = .ok t) ↔ IsShown v := by
  simp only [channelText_eq_bind, Answers.bind_eq_ok_iff, IsShown, ← exists_shownNumber_iff]
  exact ⟨fun ⟨t, x, number, shown⟩ => ⟨x, number, t, shown⟩,
    fun ⟨x, number, t, shown⟩ => ⟨t, x, number, shown⟩⟩

/-! ## Channels -/

/-- A channel that is shown on a scale. -/
def scaledText (scale : Nat) (v : Value) : Except Fault String := enlarge scale v >>= channelText

theorem isNumberText_of_scaledText {scale : Nat} {v : Value} {t : String}
    (shown : scaledText scale v = .ok t) : IsNumberText t := by
  rw [scaledText, Answers.bind_eq_ok_iff] at shown
  obtain ⟨enlarged, -, shown⟩ := shown
  exact isNumberText_of_channelText shown

/-- A value that is shown once it is enlarged. -/
def IsShownOn (scale : Nat) (v : Value) : Prop :=
  ∃ enlarged, enlarge scale v = .ok enlarged ∧ IsShown enlarged

theorem exists_scaledText_iff {scale : Nat} {v : Value} :
    (∃ t, scaledText scale v = .ok t) ↔ IsShownOn scale v := by
  simp only [scaledText, Answers.bind_eq_ok_iff, IsShownOn, ← exists_channelText_iff]
  exact ⟨fun ⟨t, enlarged, scaled, shown⟩ => ⟨enlarged, scaled, t, shown⟩,
    fun ⟨enlarged, scaled, t, shown⟩ => ⟨t, enlarged, scaled, shown⟩⟩

/-- The number of a channel as a class has it. -/
def numericChannel (v : Value) : Option Value := (v.coerceNumber false).map Quantum.value

/-- A text that stands for the number zero. -/
def IsZeroText (s : String) : Prop := ∃ x, Numeral.read? s = some x ∧ x.isZero = true

/-- A channel on a scale that is shown as its number: a truth value only if it is no number and
counts as none, and a text, which is repeated instead, only if it stands for zero. -/
def KeepsScaled : Value → Prop
  | .bool b => b = false
  | .text s => IsZeroText s
  | _ => True

theorem numericChannel_float {x : Binary64} (finite : x.isFinite = true) :
    numericChannel (.float x) = some (match x.whole? with
      | some n => .int n
      | none => .float x) := by
  simp only [numericChannel, Value.coerceNumber, Quantum.ofBinary64?, finite]
  cases x.whole? <;> rfl

theorem isFinite_of_mul {x y : Binary64} (finite : (x.mul y).isFinite = true) :
    x.isFinite = true := by
  cases x with
  | finite => rfl
  | nan => cases y <;> cases finite
  | infinite negative =>
    cases y with
    | finite s m e =>
      simp only [Binary64.mul] at finite
      split_ifs at finite
      · cases finite
      · cases finite
    | infinite => cases finite
    | nan => cases finite

/-- The text of a number is that of its integer if it is whole. -/
theorem channelText_numeric_of_shown {x : Binary64} {t : String} (shown : shownNumber x = .ok t) :
    channelText ((numericChannel (.float x)).getD (.int 1)) = .ok t := by
  rw [numericChannel_float (isFinite_of_shownNumber shown), Option.getD_some]
  cases whole : x.whole? with
  | none => exact (channelText_float x).trans shown
  | some n =>
    dsimp only
    rw [channelText_int, ← shownNumber_of_whole whole, shown]

theorem numericChannel_text {s : String} {x : Binary64} (read : Numeral.read? s = some x) :
    numericChannel (.text s) = numericChannel (.float x) := by
  simp only [numericChannel, Value.coerceNumber, read, Option.bind_some]

/-- An opacity is shown as its number, unless it is the truth value that counts as none. -/
theorem channelText_numeric_iff {v : Value} {t : String} (shown : channelText v = .ok t) :
    channelText ((numericChannel v).getD (.int 1)) = .ok t ↔ v ≠ .bool false := by
  have one : channelText (.bool true) = channelText (.int 1) := rfl
  cases v with
  | int n => exact iff_of_true shown (by simp)
  | float x =>
    rw [channelText_float] at shown
    exact iff_of_true (channelText_numeric_of_shown shown) (by simp)
  | text s =>
    obtain ⟨x, read, shown⟩ := channelText_text_eq_ok_iff.mp shown
    rw [numericChannel_text read]
    exact iff_of_true (channelText_numeric_of_shown shown) (by simp)
  | bool b =>
    change channelText (.int 1) = .ok t ↔ _
    rw [← one]
    cases b with
    | true => exact iff_of_true shown (by simp)
    | false =>
      refine iff_of_false ?_ (by simp)
      intro same
      rw [← shown] at same
      have texts : (channelText (.bool true)).toOption = some "1" ∧
          (channelText (.bool false)).toOption = some "0" := by decide +kernel
      rw [same, texts.2] at texts
      exact absurd texts.1 (by decide)
  | null => cases shown
  | date _ => cases shown
  | moment _ => cases shown
  | clock _ => cases shown
  | list _ => cases shown
  | map _ => cases shown

/-! ## Texts on a scale -/

/-- A natural number that is shown is an integer not far from it. -/
theorem shownNumber_natural {w : Nat} {t : String}
    (shown : shownNumber (ofQuotient false w 1) = .ok t) :
    ∃ v : Nat, t = toString v ∧ w ≤ 2 * v ∧ v ≤ 2 * w := by
  obtain tooGreat | ⟨v, whole, atLeast, atMost⟩ := exists_whole_of_ofQuotient false w
  · rw [tooGreat] at shown
    cases shown
  · have stays := roundPlaces_ofQuotient 4 false w
    have finite := isFinite_of_whole? whole
    refine ⟨v, ?_, atLeast, atMost⟩
    cases rounded : ofQuotient false w 1 with
    | nan => simp [rounded, Binary64.isFinite] at finite
    | infinite => simp [rounded, Binary64.isFinite] at finite
    | finite negative m e =>
      rw [rounded] at shown stays whole
      simp only [shownNumber, stays, whole, Except.ok.injEq] at shown
      exact shown.symm

theorem ofDecimal_natural (w : Nat) : ofDecimal false w 0 = ofQuotient false w 1 :=
  ofDecimal_of_whole rfl

/-- A numeral that is no zero is read as an integer not far from it, if it is not too great. -/
theorem numericChannel_of_digits {s : String} {w : Nat}
    (read : Numeral.read? s = some (ofDecimal false w 0)) (positive : 0 < w) :
    ¬ IsZeroText s ∧ ∃ v : Nat, (numericChannel (.text s)).getD (.int 0) = .int v ∧ v ≤ 2 * w := by
  rw [ofDecimal_natural] at read
  obtain tooGreat | ⟨v, whole, atLeast, atMost⟩ := exists_whole_of_ofQuotient false w
  · rw [tooGreat] at read
    refine ⟨?_, 0, ?_, Nat.zero_le _⟩
    · rintro ⟨x, isRead, zero⟩
      rw [read, Option.some.injEq] at isRead
      subst isRead
      cases zero
    · rw [numericChannel_text read]
      rfl
  · constructor
    · rintro ⟨x, isRead, zero⟩
      rw [read, Option.some.injEq] at isRead
      subst isRead
      rw [whole?_of_isZero zero, signed, if_neg Bool.false_ne_true, Option.some.injEq] at whole
      omega
    · refine ⟨v, ?_, atMost⟩
      rw [numericChannel_text read, numericChannel_float (isFinite_of_whole? whole), whole]
      rfl

theorem scaledText_int (scale : Nat) (n : Int) :
    scaledText scale (.int n) = shownNumber (ofInt (n * scale)) :=
  channelText_int _

theorem eight_mul_lt {k : Nat} (many : 11 ≤ k) : 8 * (k + 1) < 10 ^ k := by
  induction k, many using Nat.le_induction with
  | base => decide
  | succ k many ih =>
    rw [Nat.pow_succ]
    omega

/-- A text is repeated instead of being enlarged, which shows its number only if it is zero. -/
theorem scaledText_text_iff {scale : Nat} (many : 12 ≤ scale) {s t : String}
    (shown : scaledText scale (.text s) = .ok t) :
    scaledText scale ((numericChannel (.text s)).getD (.int 0)) = .ok t ↔ IsZeroText s := by
  obtain ⟨x, read, shown⟩ := channelText_text_eq_ok_iff.mp shown
  rw [Numeral.read?_eq, String.toList_join, List.flatMap_replicate] at read
  obtain ⟨ds, given, own, rfl⟩ := Numeral.exists_digits_of_repeated many read
  rw [← Numeral.read?_eq] at own
  rw [ofDecimal_natural] at shown
  obtain zero | positive := Nat.eq_zero_or_pos (Numeral.digitsValue ds)
  · rw [Numeral.digitsValue_copies_of_zero zero] at shown
    rw [zero] at own
    refine iff_of_true ?_ ⟨_, own, rfl⟩
    have none : (0 : Int) * scale = 0 := Int.zero_mul _
    rw [numericChannel_text own, numericChannel_float rfl, whole?_of_isZero rfl, Option.getD_some,
      scaledText_int, none]
    exact shown
  · obtain ⟨notZero, v, numeric, small⟩ := numericChannel_of_digits own positive
    refine iff_of_false (fun same => ?_) notZero
    have product : (v : Int) * scale = (v * scale : Nat) := (Nat.cast_mul v scale).symm
    rw [numeric, scaledText_int, product, ofInt_natCast] at same
    obtain ⟨a, a_text, a_great, -⟩ := shownNumber_natural shown
    obtain ⟨b, b_text, -, b_small⟩ := shownNumber_natural same
    obtain rfl : a = b := toString_nat_inj (a_text.symm.trans b_text)
    -- The copies come to more than the number on its scale, however either is rounded.
    obtain ⟨k, rfl⟩ : ∃ k, scale = k + 1 := ⟨scale - 1, by omega⟩
    have large := eight_mul_lt (Nat.le_of_succ_le_succ many)
    have copies := Numeral.digitsValue_copies_ge given k
    have more : Numeral.digitsValue ds * (8 * (k + 1)) < Numeral.digitsValue ds * 10 ^ k :=
      Nat.mul_lt_mul_of_pos_left large positive
    have less : v * (k + 1) ≤ 2 * Numeral.digitsValue ds * (k + 1) := Nat.mul_le_mul_right _ small
    have same : 4 * (2 * Numeral.digitsValue ds * (k + 1)) =
        Numeral.digitsValue ds * (8 * (k + 1)) := by ring
    omega

/-- A channel on a scale is shown as its number exactly if it keeps it. -/
theorem scaledText_numeric_iff {scale : Nat} (many : 12 ≤ scale) (small : scale < 2 ^ 53)
    {v : Value} {t : String} (shown : scaledText scale v = .ok t) :
    scaledText scale ((numericChannel v).getD (.int 0)) = .ok t ↔ KeepsScaled v := by
  have positive : 0 < scale := Nat.lt_of_lt_of_le (by decide) many
  cases v with
  | int n => exact iff_of_true shown trivial
  | float x =>
    refine iff_of_true ?_ trivial
    have product : shownNumber (x.mul (ofInt scale)) = .ok t :=
      (channelText_float _).symm.trans shown
    have finite := isFinite_of_mul (isFinite_of_shownNumber product)
    rw [numericChannel_float finite, Option.getD_some]
    cases whole : x.whole? with
    | none => exact shown
    | some n =>
      dsimp only
      rw [scaledText_int, ← shownNumber_mul_of_whole whole positive small, product]
  | text s => exact scaledText_text_iff many shown
  | bool b =>
    have given : channelText (.int (if b then scale else 0)) = .ok t := shown
    rw [channelText_int] at given
    change scaledText scale (.int 0) = .ok t ↔ b = false
    rw [scaledText_int, Int.zero_mul]
    cases b with
    | false => exact iff_of_true given rfl
    | true =>
      refine iff_of_false (fun same => ?_) Bool.noConfusion
      rw [if_pos rfl, ofInt_natCast] at given
      rw [← Int.natCast_zero, ofInt_natCast] at same
      obtain ⟨a, a_text, great, -⟩ := shownNumber_natural given
      obtain ⟨b, b_text, -, zero⟩ := shownNumber_natural same
      obtain rfl : a = b := toString_nat_inj (a_text.symm.trans b_text)
      omega
  | null => cases shown
  | date _ => cases shown
  | moment _ => cases shown
  | clock _ => cases shown
  | list _ => cases shown
  | map _ => cases shown

/-! ## Colors -/

def hsla (hue saturation lightness opacity : String) : String :=
  "hsla(" ++ hue ++ ", " ++ saturation ++ "%, " ++ lightness ++ "%, " ++ opacity ++ ")"

theorem not_mem_of_isNumberText {s : String} (isNumber : IsNumberText s) : ',' ∉ s.toList :=
  fun member => absurd (isNumber ',' member) (by decide)

/-- The channels stand between commas. -/
theorem cutAt_hsla {hue saturation lightness opacity : String} (hueText : IsNumberText hue)
    (saturationText : IsNumberText saturation) (lightnessText : IsNumberText lightness)
    (opacityText : IsNumberText opacity) :
    Text.cutAt ',' (hsla hue saturation lightness opacity).toList =
      ["hsla(".toList ++ hue.toList, ' ' :: saturation.toList ++ ['%'],
        ' ' :: lightness.toList ++ ['%'], ' ' :: opacity.toList ++ [')']] := by
  have spelled : (hsla hue saturation lightness opacity).toList =
      ("hsla(".toList ++ hue.toList) ++ ',' :: ((' ' :: saturation.toList ++ ['%']) ++
        ',' :: ((' ' :: lightness.toList ++ ['%']) ++
          ',' :: (' ' :: opacity.toList ++ [')']))) := by
    simp [hsla, String.toList_append]
  have first : ',' ∉ "hsla(".toList ++ hue.toList := by
    rw [List.mem_append, not_or]
    exact ⟨by decide, not_mem_of_isNumberText hueText⟩
  have inner : ∀ {s : String} {c : Char}, IsNumberText s → c ≠ ',' →
      ',' ∉ ' ' :: s.toList ++ [c] := by
    intro s c isNumber other
    simp [not_mem_of_isNumberText isNumber, other.symm]
  rw [spelled, Text.cutAt_append_cons first,
    Text.cutAt_append_cons (inner saturationText (by decide)),
    Text.cutAt_append_cons (inner lightnessText (by decide)),
    Text.cutAt_of_not_mem (inner opacityText (by decide))]

/-- A color shows its channels. -/
theorem hsla_inj {hue saturation lightness opacity hue' saturation' lightness' opacity' : String}
    (hueText : IsNumberText hue) (saturationText : IsNumberText saturation)
    (lightnessText : IsNumberText lightness) (opacityText : IsNumberText opacity)
    (hueText' : IsNumberText hue') (saturationText' : IsNumberText saturation')
    (lightnessText' : IsNumberText lightness') (opacityText' : IsNumberText opacity')
    (same : hsla hue saturation lightness opacity =
      hsla hue' saturation' lightness' opacity') :
    hue = hue' ∧ saturation = saturation' ∧ lightness = lightness' ∧ opacity = opacity' := by
  have cut := congrArg (fun css => Text.cutAt ',' css.toList) same
  rw [cutAt_hsla hueText saturationText lightnessText opacityText,
    cutAt_hsla hueText' saturationText' lightnessText' opacityText'] at cut
  simpa [String.toList_inj] using cut

theorem colorCss_eq_ok_iff {values : OrderedMap String Value} {css : String} :
    colorCss values = .ok css ↔ ∃ hue saturation lightness opacity,
      scaledText 360 ((values.get? "h").getD (.int 0)) = .ok hue ∧
      scaledText 100 ((values.get? "s").getD (.int 0)) = .ok saturation ∧
      scaledText 100 ((values.get? "l").getD (.int 0)) = .ok lightness ∧
      channelText ((values.get? "a").getD (.int 1)) = .ok opacity ∧
      css = hsla hue saturation lightness opacity := by
  simp only [colorCss, scaledText, Answers.bind_eq_ok_iff]
  constructor
  · rintro ⟨h, enlarged, hue, hueShown, s, enlarged', saturation, saturationShown, l, enlarged'',
      lightness, lightnessShown, opacity, opacityShown, ⟨⟩⟩
    exact ⟨hue, saturation, lightness, opacity, ⟨h, enlarged, hueShown⟩,
      ⟨s, enlarged', saturationShown⟩, ⟨l, enlarged'', lightnessShown⟩, opacityShown, rfl⟩
  · rintro ⟨hue, saturation, lightness, opacity, ⟨h, enlarged, hueShown⟩,
      ⟨s, enlarged', saturationShown⟩, ⟨l, enlarged'', lightnessShown⟩, opacityShown, rfl⟩
    exact ⟨h, enlarged, hue, hueShown, s, enlarged', saturation, saturationShown, l, enlarged'',
      lightness, lightnessShown, opacity, opacityShown, rfl⟩

/-- Values that a style sheet can show as a color: each channel has a number that stays finite when
it is rounded, three of them on their scales. -/
def IsColor (values : OrderedMap String Value) : Prop :=
  IsShownOn 360 ((values.get? "h").getD (.int 0)) ∧
    IsShownOn 100 ((values.get? "s").getD (.int 0)) ∧
    IsShownOn 100 ((values.get? "l").getD (.int 0)) ∧
    IsShown ((values.get? "a").getD (.int 1))

theorem exists_colorCss_iff {values : OrderedMap String Value} :
    (∃ css, colorCss values = .ok css) ↔ IsColor values := by
  simp only [IsColor, colorCss_eq_ok_iff, ← exists_scaledText_iff, ← exists_channelText_iff]
  constructor
  · rintro ⟨_, hue, saturation, lightness, opacity, hueShown, saturationShown, lightnessShown,
      opacityShown, -⟩
    exact ⟨⟨hue, hueShown⟩, ⟨saturation, saturationShown⟩, ⟨lightness, lightnessShown⟩, opacity,
      opacityShown⟩
  · rintro ⟨⟨hue, hueShown⟩, ⟨saturation, saturationShown⟩, ⟨lightness, lightnessShown⟩, opacity,
      opacityShown⟩
    exact ⟨_, hue, saturation, lightness, opacity, hueShown, saturationShown, lightnessShown,
      opacityShown, rfl⟩

/-- The channels of a color, each as the number that it stands for. -/
def numericChannels (values : OrderedMap String Value) : OrderedMap String Value :=
  ⟨["h", "s", "l", "a"].filterMap fun name =>
    ((values.get? name).bind numericChannel).map fun v => (name, v)⟩

theorem get?_numericChannels {values : OrderedMap String Value} {name : String}
    (listed : name ∈ ["h", "s", "l", "a"]) :
    (numericChannels values).get? name = (values.get? name).bind numericChannel :=
  OrderedMap.lookup_filterMap (.inl listed)

/-- A color whose channels are all shown as their numbers. -/
def KeepsChannels (values : OrderedMap String Value) : Prop :=
  (∀ name ∈ ["h", "s", "l"], ∀ v, values.get? name = some v → KeepsScaled v) ∧
    values.get? "a" ≠ some (.bool false)

theorem scaledText_numericChannels_iff {values : OrderedMap String Value} {name : String}
    (listed : name ∈ ["h", "s", "l", "a"]) {scale : Nat} (many : 12 ≤ scale)
    (small : scale < 2 ^ 53) {t : String}
    (shown : scaledText scale ((values.get? name).getD (.int 0)) = .ok t) :
    scaledText scale (((numericChannels values).get? name).getD (.int 0)) = .ok t ↔
      ∀ v, values.get? name = some v → KeepsScaled v := by
  rw [get?_numericChannels listed]
  cases given : values.get? name with
  | none =>
    rw [given] at shown
    exact iff_of_true shown (by simp)
  | some v =>
    rw [given] at shown
    simpa using scaledText_numeric_iff many small shown

theorem channelText_numericChannels_iff {values : OrderedMap String Value} {t : String}
    (shown : channelText ((values.get? "a").getD (.int 1)) = .ok t) :
    channelText (((numericChannels values).get? "a").getD (.int 1)) = .ok t ↔
      values.get? "a" ≠ some (.bool false) := by
  rw [get?_numericChannels (by simp)]
  cases given : values.get? "a" with
  | none =>
    rw [given] at shown
    exact iff_of_true shown (by simp)
  | some v =>
    rw [given] at shown
    simpa using channelText_numeric_iff shown

/-- A color is shown as that of its numbers exactly if every channel is. -/
theorem colorCss_numericChannels_iff {values : OrderedMap String Value} {css : String}
    (shown : colorCss values = .ok css) :
    colorCss (numericChannels values) = .ok css ↔ KeepsChannels values := by
  obtain ⟨hue, saturation, lightness, opacity, hueShown, saturationShown, lightnessShown,
    opacityShown, rfl⟩ := colorCss_eq_ok_iff.mp shown
  have keeps : KeepsChannels values ↔
      scaledText 360 (((numericChannels values).get? "h").getD (.int 0)) = .ok hue ∧
      scaledText 100 (((numericChannels values).get? "s").getD (.int 0)) = .ok saturation ∧
      scaledText 100 (((numericChannels values).get? "l").getD (.int 0)) = .ok lightness ∧
      channelText (((numericChannels values).get? "a").getD (.int 1)) = .ok opacity := by
    rw [scaledText_numericChannels_iff (by simp) (by decide) (by decide) hueShown,
      scaledText_numericChannels_iff (by simp) (by decide) (by decide) saturationShown,
      scaledText_numericChannels_iff (by simp) (by decide) (by decide) lightnessShown,
      channelText_numericChannels_iff opacityShown, KeepsChannels]
    simp only [List.forall_mem_cons, List.not_mem_nil, false_implies, implies_true, and_true,
      and_assoc]
  rw [keeps, colorCss_eq_ok_iff]
  constructor
  · rintro ⟨hue', saturation', lightness', opacity', hueShown', saturationShown', lightnessShown',
      opacityShown', same⟩
    obtain ⟨rfl, rfl, rfl, rfl⟩ := hsla_inj
      (isNumberText_of_scaledText hueShown) (isNumberText_of_scaledText saturationShown)
      (isNumberText_of_scaledText lightnessShown) (isNumberText_of_channelText opacityShown)
      (isNumberText_of_scaledText hueShown') (isNumberText_of_scaledText saturationShown')
      (isNumberText_of_scaledText lightnessShown') (isNumberText_of_channelText opacityShown') same
    exact ⟨hueShown', saturationShown', lightnessShown', opacityShown'⟩
  · rintro ⟨hueShown', saturationShown', lightnessShown', opacityShown'⟩
    exact ⟨_, _, _, _, hueShown', saturationShown', lightnessShown', opacityShown', rfl⟩

end Style

end DesignGraph
