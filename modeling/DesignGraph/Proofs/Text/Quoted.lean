import DesignGraph.Text.Quoted
import Mathlib.Algebra.Group.Nat.Defs
import Mathlib.Data.List.Basic
import Mathlib.Tactic.SplitIfs

/-!
# The form of quoted text

The ASCII form of a text has three ways to write a character: as it is, with a short escape, and by
its number. All of them are printable, and none has a quote that a backslash does not escape, so the
literal ends where its text does.
-/

namespace DesignGraph.Text

/-- A printable ASCII character. -/
def IsPrintable (c : Char) : Prop := 0x20 ≤ c.toNat ∧ c.toNat ≤ 0x7e

instance : DecidablePred IsPrintable := fun c =>
  inferInstanceAs (Decidable (0x20 ≤ c.toNat ∧ c.toNat ≤ 0x7e))

/-- What follows the first quote that no backslash escapes. -/
def afterQuote? : List Char → Option (List Char)
  | [] => none
  | '"' :: rest => some rest
  | '\\' :: _ :: rest => afterQuote? rest
  | _ :: rest => afterQuote? rest

theorem afterQuote?_cons {c : Char} (quote : c ≠ '"') (backslash : c ≠ '\\') (rest : List Char) :
    afterQuote? (c :: rest) = afterQuote? rest := by
  rw [afterQuote?.eq_def]
  split <;> simp_all

theorem afterQuote?_backslash (c : Char) (rest : List Char) :
    afterQuote? ('\\' :: c :: rest) = afterQuote? rest := by
  rw [afterQuote?]

theorem afterQuote?_append {front : List Char} (plain : ∀ c ∈ front, c ≠ '"' ∧ c ≠ '\\')
    (rest : List Char) : afterQuote? (front ++ rest) = afterQuote? rest := by
  induction front with
  | nil => rfl
  | cons c front ih =>
    obtain ⟨first, others⟩ := List.forall_mem_cons.mp plain
    rw [List.cons_append, afterQuote?_cons first.1 first.2, ih others]

/-! ## Hexadecimal digits -/

theorem hexValue?_hexDigit {n : Nat} (small : n < 16) : hexValue? (hexDigit n) = some n := by
  have all : ∀ n < 16, hexValue? (hexDigit n) = some n := by decide
  exact all n small

theorem hexDigit_plain {n : Nat} (small : n < 16) :
    IsPrintable (hexDigit n) ∧ hexDigit n ≠ '"' ∧ hexDigit n ≠ '\\' := by
  have all : ∀ n < 16, IsPrintable (hexDigit n) ∧ hexDigit n ≠ '"' ∧ hexDigit n ≠ '\\' := by
    decide
  exact all n small

theorem exists_hexDigit_of_mem {width n : Nat} {c : Char} (member : c ∈ hexDigits width n) :
    ∃ d < 16, c = hexDigit d := by
  induction width generalizing n with
  | zero => cases member
  | succ width ih =>
    rcases List.mem_append.mp member with earlier | last
    · exact ih earlier
    · exact ⟨n % 16, Nat.mod_lt n (by decide), List.mem_singleton.mp last⟩

theorem length_hexDigits (width n : Nat) : (hexDigits width n).length = width := by
  induction width generalizing n with
  | zero => rfl
  | succ width ih => rw [hexDigits, List.length_append, ih, List.length_singleton]

/-- Enough digits tell the number. -/
theorem hexNumber?_hexDigits {width n : Nat} (fits : n < 16 ^ width) :
    hexNumber? (hexDigits width n) = some n := by
  induction width generalizing n with
  | zero =>
    obtain rfl : n = 0 := by simpa using fits
    rfl
  | succ width ih =>
    have front : n / 16 < 16 ^ width := by
      rw [Nat.pow_succ] at fits
      omega
    have whole : n / 16 * 16 + n % 16 = n := by omega
    have first := ih front
    have last := hexValue?_hexDigit (Nat.mod_lt n (show 0 < 16 by decide))
    unfold hexNumber? at first ⊢
    simp [hexDigits, List.foldlM_append, first, last, whole]

namespace Quoted

/-- The characters that are written with a short escape, each after its letter. -/
def shortEscapes : List (Char × Char) :=
  [('"', '"'), ('\\', '\\'), ('n', '\n'), ('r', '\r'), ('t', '\t'), ('b', '\x08'), ('f', '\x0c')]

/-- How the ASCII form writes a character. -/
inductive Written (c : Char) : List Char → Prop
  | itself (printable : IsPrintable c) (quote : c ≠ '"') (backslash : c ≠ '\\') : Written c [c]
  | letter {letter : Char} (listed : (letter, c) ∈ shortEscapes) : Written c ['\\', letter]
  | code (other : ¬ IsPrintable c) : Written c (escapeCode c.toNat)

theorem written_encodeChar (c : Char) : Written c (encodeChar .ascii c) := by
  unfold encodeChar
  split
  all_goals try exact .letter (by decide)
  next quote backslash _ _ _ _ _ =>
  split_ifs with control high
  · have other : ¬ IsPrintable c := fun printable => Nat.not_lt.mpr printable.1 control
    have unit_eq : unit c.toNat = escapeCode c.toNat := by
      rw [escapeCode, if_pos (Nat.lt_trans control (by decide))]
    rw [unit_eq]
    exact .code other
  · simp only [decide_true, Bool.true_and, decide_eq_true_eq] at high
    exact .code fun printable => Nat.not_lt.mpr high (Nat.lt_succ_of_le printable.2)
  · simp only [decide_true, Bool.true_and, decide_eq_true_eq] at high
    exact .itself ⟨Nat.not_lt.mp control, Nat.le_of_lt_succ (Nat.not_le.mp high)⟩ quote backslash

section unit

variable {n : Nat} {c : Char}

theorem mem_unit (member : c ∈ unit n) : c = '\\' ∨ c = 'u' ∨ ∃ d < 16, c = hexDigit d := by
  simp only [unit, List.mem_cons] at member
  exact member.imp_right fun later => later.imp_right exists_hexDigit_of_mem

theorem exists_escapeCode (n : Nat) : ∃ rest, escapeCode n = '\\' :: 'u' :: rest := by
  unfold escapeCode
  split_ifs
  · exact ⟨_, rfl⟩
  · exact ⟨_, rfl⟩

theorem mem_escapeCode (member : c ∈ escapeCode n) :
    c = '\\' ∨ c = 'u' ∨ ∃ d < 16, c = hexDigit d := by
  unfold escapeCode at member
  split_ifs at member
  · exact mem_unit member
  · exact (List.mem_append.mp member).elim mem_unit mem_unit

theorem afterQuote?_unit (n : Nat) (rest : List Char) :
    afterQuote? (unit n ++ rest) = afterQuote? rest := by
  have plain : ∀ c ∈ hexDigits 4 n, c ≠ '"' ∧ c ≠ '\\' := by
    intro c member
    obtain ⟨d, small, rfl⟩ := exists_hexDigit_of_mem member
    exact (hexDigit_plain small).2
  rw [unit, List.cons_append, List.cons_append, afterQuote?_backslash, afterQuote?_append plain]

end unit

theorem length_encodeChar_pos (c : Char) : 0 < (encodeChar .ascii c).length := by
  generalize encodeChar .ascii c = written, written_encodeChar c = form
  cases form with
  | itself _ _ _ => exact Nat.one_pos
  | letter _ => exact Nat.two_pos
  | code _ =>
    obtain ⟨rest, opened⟩ := exists_escapeCode c.toNat
    rw [opened]
    exact Nat.succ_pos _

theorem length_le_length_encoded (cs : List Char) :
    cs.length ≤ (cs.flatMap (encodeChar .ascii)).length := by
  induction cs with
  | nil => exact Nat.le_refl 0
  | cons c cs ih =>
    have first := length_encodeChar_pos c
    rw [List.flatMap_cons, List.length_append, List.length_cons]
    omega

theorem isPrintable_of_mem_encodeChar {c d : Char} (member : d ∈ encodeChar .ascii c) :
    IsPrintable d := by
  have letters : ∀ escape ∈ shortEscapes, IsPrintable escape.1 := by decide
  generalize encodeChar .ascii c = written, written_encodeChar c = form at member
  cases form with
  | itself printable _ _ => exact List.mem_singleton.mp member ▸ printable
  | letter listed =>
    rcases List.mem_pair.mp member with rfl | rfl
    · decide
    · exact letters _ listed
  | code _ =>
    rcases mem_escapeCode member with rfl | rfl | ⟨n, small, rfl⟩
    · decide
    · decide
    · exact (hexDigit_plain small).1

theorem afterQuote?_encodeChar (c : Char) (rest : List Char) :
    afterQuote? (encodeChar .ascii c ++ rest) = afterQuote? rest := by
  generalize encodeChar .ascii c = written, written_encodeChar c = form
  cases form with
  | itself _ quote backslash => exact afterQuote?_cons quote backslash rest
  | letter _ => exact afterQuote?_backslash _ rest
  | code _ =>
    unfold escapeCode
    split_ifs
    · exact afterQuote?_unit _ rest
    · rw [List.append_assoc, afterQuote?_unit, afterQuote?_unit]

end Quoted

/-! ## Literals -/

open Quoted (encodeChar encodeChars)

theorem toList_quoted (alphabet : Quoted.Alphabet) (s : String) :
    (quoted alphabet s).toList = '"' :: s.toList.flatMap (encodeChar alphabet) ++ ['"'] := by
  rw [quoted, String.toList_ofList, encodeChars]

theorem isPrintable_of_mem_quoted {s : String} {c : Char}
    (member : c ∈ (quoted .ascii s).toList) : IsPrintable c := by
  simp only [toList_quoted, List.cons_append, List.mem_cons, List.mem_append, List.mem_flatMap,
    List.not_mem_nil, or_false] at member
  rcases member with rfl | ⟨d, -, inside⟩ | rfl
  · decide
  · exact Quoted.isPrintable_of_mem_encodeChar inside
  · decide

/-- The literal ends with the first quote that is not escaped. -/
theorem afterQuote?_encoded (cs rest : List Char) :
    afterQuote? (cs.flatMap (encodeChar .ascii) ++ '"' :: rest) = some rest := by
  induction cs with
  | nil => rw [List.flatMap_nil, List.nil_append, afterQuote?]
  | cons c cs ih =>
    rw [List.flatMap_cons, List.append_assoc, Quoted.afterQuote?_encodeChar, ih]

end DesignGraph.Text
