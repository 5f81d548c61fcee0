import DesignGraph.Proofs.Text.Percent
import DesignGraph.Text.Quoted

/-!
# String literals of Swift

What a literal between double quotes denotes in Swift. The quoted form that scripts and manifests
share differs from it in the controls: Swift knows a short escape for some of them, and writes any
other number of a character in braces.
-/

namespace DesignGraph.Text.Swift

/-- Escapes of one letter. -/
def escapes : List (Char × Char) :=
  [('0', '\x00'), ('\\', '\\'), ('t', '\t'), ('n', '\n'), ('r', '\r'), ('"', '"'), ('\'', '\'')]

/-- A character that stands for itself. -/
def IsPlain (c : Char) : Prop := c ≠ '"' ∧ c ≠ '\\' ∧ c ≠ '\n' ∧ c ≠ '\r'

instance : DecidablePred IsPlain := fun c =>
  inferInstanceAs (Decidable (c ≠ '"' ∧ c ≠ '\\' ∧ c ≠ '\n' ∧ c ≠ '\r'))

/-- What stands between the quotes of a literal denotes a text. An escape that is none of these has
no meaning; a backslash before a parenthesis begins an interpolation. -/
inductive Denotes : List Char → List Char → Prop
  | nil : Denotes [] []
  | plain {c : Char} {cs ds : List Char} (isPlain : IsPlain c) (later : Denotes cs ds) :
      Denotes (c :: cs) (c :: ds)
  | escape {letter c : Char} {cs ds : List Char} (listed : (letter, c) ∈ escapes)
      (later : Denotes cs ds) : Denotes ('\\' :: letter :: cs) (c :: ds)
  | code {digits cs ds : List Char} {n : Nat} (given : digits ≠ []) (few : digits.length ≤ 8)
      (number : hexNumber? digits = some n) (valid : n.isValidChar) (later : Denotes cs ds) :
      Denotes ('\\' :: 'u' :: '\x7b' :: digits ++ '\x7d' :: cs) (Char.ofNat n :: ds)

/-- The literal denotes the text. -/
def IsLiteral (literal s : String) : Prop :=
  ∃ body, literal.toList = '"' :: body ++ ['"'] ∧ Denotes body s.toList

variable {c : Char} {cs ds : List Char}

/-! ## One character -/

theorem denotes_plain_iff (isPlain : IsPlain c) :
    Denotes (c :: cs) ds ↔ ∃ rest, ds = c :: rest ∧ Denotes cs rest := by
  constructor
  · intro denotes
    cases denotes with
    | plain _ later => exact ⟨_, rfl, later⟩
    | escape _ _ => exact absurd rfl isPlain.2.1
    | code _ _ _ _ _ => exact absurd rfl isPlain.2.1
  · rintro ⟨rest, rfl, later⟩
    exact .plain isPlain later

/-- What a backslash begins. -/
theorem denotes_backslash_iff {letter : Char} : Denotes ('\\' :: letter :: cs) ds ↔
    (∃ c rest, (letter, c) ∈ escapes ∧ ds = c :: rest ∧ Denotes cs rest) ∨
      letter = 'u' ∧ ∃ digits after n rest, cs = '\x7b' :: digits ++ '\x7d' :: after ∧
        digits ≠ [] ∧ digits.length ≤ 8 ∧ hexNumber? digits = some n ∧ n.isValidChar ∧
        ds = Char.ofNat n :: rest ∧ Denotes after rest := by
  constructor
  · intro denotes
    generalize split : '\\' :: letter :: cs = whole at denotes
    cases denotes with
    | nil => cases split
    | plain isPlain _ =>
      cases split
      exact absurd rfl isPlain.2.1
    | escape listed later =>
      cases split
      exact .inl ⟨_, _, listed, rfl, later⟩
    | code given few number valid later =>
      cases split
      exact .inr ⟨rfl, _, _, _, _, rfl, given, few, number, valid, rfl, later⟩
  · rintro (⟨c, rest, listed, rfl, later⟩ |
      ⟨rfl, digits, after, n, rest, rfl, given, few, number, valid, rfl, later⟩)
    · exact .escape listed later
    · exact .code given few number valid later

theorem denotes_escape_iff {letter : Char} (listed : (letter, c) ∈ escapes) :
    Denotes ('\\' :: letter :: cs) ds ↔ ∃ rest, ds = c :: rest ∧ Denotes cs rest := by
  have distinct : ∀ one ∈ escapes, ∀ other ∈ escapes, one.1 = other.1 → one.2 = other.2 := by
    decide
  have notCode : ∀ one ∈ escapes, one.1 ≠ 'u' := by decide
  rw [denotes_backslash_iff]
  constructor
  · rintro (⟨other, rest, again, rfl, later⟩ | ⟨isCode, -⟩)
    · obtain rfl : c = other := distinct _ listed _ again rfl
      exact ⟨rest, rfl, later⟩
    · exact absurd isCode (notCode _ listed)
  · rintro ⟨rest, rfl, later⟩
    exact .inl ⟨c, rest, listed, rfl, later⟩

/-- A letter that Swift does not know as an escape. -/
theorem not_denotes_letter {letter : Char} (unknown : ∀ one ∈ escapes, one.1 ≠ letter)
    (notCode : letter ≠ 'u') : ¬ Denotes ('\\' :: letter :: cs) ds := by
  rw [denotes_backslash_iff]
  rintro (⟨_, _, listed, -⟩ | ⟨isCode, -⟩)
  · exact unknown _ listed rfl
  · exact notCode isCode

theorem hexDigit_ne_brace (n : Nat) : hexDigit (n % 16) ≠ '\x7b' := by
  have all : ∀ n < 16, hexDigit n ≠ '\x7b' := by decide
  exact all _ (Nat.mod_lt _ (by decide))

/-- Four digits without braces have no meaning. -/
theorem not_denotes_unit (n : Nat) : ¬ Denotes (Quoted.unit n ++ cs) ds := by
  have notCode : ∀ one ∈ escapes, one.1 ≠ 'u' := by decide
  have opened : Quoted.unit n ++ cs = '\\' :: 'u' :: hexDigit (n / 16 / 16 / 16 % 16) ::
      (hexDigit (n / 16 / 16 % 16) :: hexDigit (n / 16 % 16) :: hexDigit (n % 16) :: cs) := by
    simp [Quoted.unit, hexDigits]
  rw [opened, denotes_backslash_iff]
  rintro (⟨_, _, listed, -⟩ | ⟨-, _, _, _, _, braced, -⟩)
  · exact notCode _ listed rfl
  · exact hexDigit_ne_brace _ (List.cons.inj braced).1

/-! ## Texts that are shown as they are -/

theorem denotes_of_plain_iff (allPlain : ∀ c ∈ cs, IsPlain c) : Denotes cs ds ↔ ds = cs := by
  induction cs generalizing ds with
  | nil =>
    constructor
    · intro denotes
      cases denotes
      rfl
    · rintro rfl
      exact .nil
  | cons c cs ih =>
    obtain ⟨isPlain, others⟩ := List.forall_mem_cons.mp allPlain
    rw [denotes_plain_iff isPlain]
    simp only [ih others, exists_eq_right]

/-- Characters with a number below that of the blank that are written with a short escape in both
notations. -/
def sharedControls : List Char := ['\n', '\r', '\t']

/-- Whether a character has the same quoted form in Swift. -/
def IsShared (c : Char) : Prop := c.toNat < 0x20 → c ∈ sharedControls

instance : DecidablePred IsShared := fun c =>
  inferInstanceAs (Decidable (c.toNat < 0x20 → c ∈ sharedControls))

/-- A quoted character denotes itself if it is shared, and nothing otherwise. -/
theorem denotes_encodeChar_iff (c : Char) : Denotes (Quoted.encodeChar .plain c ++ cs) ds ↔
    IsShared c ∧ ∃ rest, ds = c :: rest ∧ Denotes cs rest := by
  unfold Quoted.encodeChar
  split
  · exact (denotes_escape_iff (by decide)).trans (and_iff_right (by decide)).symm
  · exact (denotes_escape_iff (by decide)).trans (and_iff_right (by decide)).symm
  · exact (denotes_escape_iff (by decide)).trans (and_iff_right (by decide)).symm
  · exact (denotes_escape_iff (by decide)).trans (and_iff_right (by decide)).symm
  · exact (denotes_escape_iff (by decide)).trans (and_iff_right (by decide)).symm
  · exact iff_of_false (not_denotes_letter (by decide) (by decide)) fun shared =>
      absurd shared.1 (by decide)
  · exact iff_of_false (not_denotes_letter (by decide) (by decide)) fun shared =>
      absurd shared.1 (by decide)
  · next quote backslash feed carriage tab _ _ =>
    simp only [reduceCtorEq, decide_false, Bool.false_and, Bool.false_eq_true, if_false]
    by_cases control : c.toNat < 0x20
    · rw [if_pos control]
      refine iff_of_false (not_denotes_unit _) fun shared => ?_
      have listed := shared.1 control
      simp only [sharedControls, List.mem_cons, List.not_mem_nil, or_false] at listed
      rcases listed with rfl | rfl | rfl
      · exact feed rfl
      · exact carriage rfl
      · exact tab rfl
    · rw [if_neg control]
      have isPlain : IsPlain c := ⟨quote, backslash, feed, carriage⟩
      exact (denotes_plain_iff isPlain).trans (and_iff_right fun low => absurd low control).symm

theorem denotes_encodeChars_iff {s : List Char} :
    Denotes (s.flatMap (Quoted.encodeChar .plain)) ds ↔ ds = s ∧ ∀ c ∈ s, IsShared c := by
  induction s generalizing ds with
  | nil => simpa using denotes_of_plain_iff (List.forall_mem_nil IsPlain)
  | cons c s ih =>
    rw [List.flatMap_cons, denotes_encodeChar_iff, List.forall_mem_cons]
    simp only [ih]
    constructor
    · rintro ⟨shared, rest, rfl, rfl, others⟩
      exact ⟨rfl, shared, others⟩
    · rintro ⟨rfl, shared, others⟩
      exact ⟨shared, s, rfl, rfl, others⟩

/-! ## Literals -/

/-- The quoted form of a text is a literal of that text if all its characters are shared, and
otherwise of none. -/
theorem isLiteral_quoted_iff {s t : String} :
    IsLiteral (quoted .plain s) t ↔ t = s ∧ ∀ c ∈ s.toList, IsShared c := by
  have opened : (quoted .plain s).toList =
      '"' :: s.toList.flatMap (Quoted.encodeChar .plain) ++ ['"'] := String.toList_ofList
  rw [← String.toList_inj, ← denotes_encodeChars_iff, IsLiteral, opened]
  simp

/-- A percent-encoded text between quotes denotes itself. -/
theorem isLiteral_encode_iff {s t : String} :
    IsLiteral ("\"" ++ Percent.encode s ++ "\"") t ↔ t = Percent.encode s := by
  have allPlain : ∀ c ∈ (Percent.encode s).toList, IsPlain c := by
    intro c member
    rcases (Percent.isEscaped_encode s).unreserved c member with unreserved | rfl
    · refine ⟨?_, ?_, ?_, ?_⟩ <;> rintro rfl <;> exact absurd unreserved (by decide)
    · decide
  have opened : ("\"" ++ Percent.encode s ++ "\"").toList =
      '"' :: (Percent.encode s).toList ++ ['"'] := by simp
  rw [← String.toList_inj, ← denotes_of_plain_iff allPlain, IsLiteral, opened]
  simp

end DesignGraph.Text.Swift
